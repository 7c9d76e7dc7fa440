import NgxServer.Lib.Ownership
import NgxServer.Occupancy

/-!
# Who owns a receive buffer

A buffer that `proc_p1` allocates is held by the connection that is filling
it, then by a slot of the receive queue, then by a worker. The invariant ties
the receive state of a connection to its `precvMemPointer`, so a new header is
only ever parsed where no buffer is pending, and a package is only handed over
where one is.
-/

namespace NgxServer.RecvOwnership

open NgxServer.Comm NgxServer.State NgxServer.ConnPool NgxServer.Socket NgxServer.Request
open NgxServer.Accept NgxServer.Logic NgxServer.System NgxServer.Frames NgxServer.PoolRefinement
open NgxServer.Occupancy
open BlockHeap (null)
open QuarantinePool (InService)

set_option autoImplicit false

/-- Where a receive buffer can be: a connection's `precvMemPointer`, a slot of
`m_MsgRecvQueue`, or the `jobbuf` of a worker. -/
inductive BufHolder
  | conn (c : ConnId)
  | slot (index : Nat)
  | worker (worker : Nat)
  deriving DecidableEq, Repr

def Holds (server : Server) : BufHolder → Nat → Prop
  | .conn c, buf => (server.conns c).recv.precvMemPointer = buf ∧ buf ≠ null
  | .slot index, buf => server.msgRecvQueue[index]? = some buf
  | .worker worker, buf =>
      server.workers worker = .taken buf ∨ server.workers worker = .processed buf

/-- Every live buffer has exactly one holder, and `proc_p1` has never
overwritten a pending one. -/
structure Owned (server : Server) : Prop where
  exclusive : Ownership.Exclusive server.rheap (Holds server)
  complete : Ownership.Complete server.rheap (Holds server)
  no_overwrite : server.ghost.p1Overwrites = 0

def InHeader (recv : RecvPart) : Prop := recv.curStat = .hdInit ∨ recv.curStat = .hdRecving

/-- A connection that receives a header has no buffer, one that is live and
receives a body has one, and one that nobody uses has none. -/
structure StatesOk (server : Server) : Prop where
  head_empty : ∀ c, InHeader (server.conns c).recv →
    (server.conns c).recv.precvMemPointer = null
  body_full : ∀ c, server.ghost.occ c ≠ none → ¬ InHeader (server.conns c).recv →
    (server.conns c).recv.precvMemPointer ≠ null
  spare_empty : ∀ c, c ∈ server.freeconnectionList ∨ server.connObjects ≤ c →
    (server.conns c).recv.precvMemPointer = null

section OneConnection

variable {server after : Server} {c : ConnId}

theorem holds_of_same (conns : ∀ d, (after.conns d).recv.precvMemPointer =
      (server.conns d).recv.precvMemPointer)
    (queue : after.msgRecvQueue = server.msgRecvQueue)
    (workers : after.workers = server.workers) : Holds after = Holds server := by
  funext holder buf
  cases holder with
  | conn d => simp only [Holds, conns d]
  | slot index => simp only [Holds, queue]
  | worker worker => simp only [Holds, workers]

theorem owned_of_same (owned : Owned server)
    (conns : ∀ d, (after.conns d).recv.precvMemPointer = (server.conns d).recv.precvMemPointer)
    (queue : after.msgRecvQueue = server.msgRecvQueue)
    (workers : after.workers = server.workers) (rheap : after.rheap = server.rheap)
    (overwrites : after.ghost.p1Overwrites = server.ghost.p1Overwrites) : Owned after := by
  have holds := holds_of_same conns queue workers
  refine ⟨?_, ?_, overwrites.trans owned.no_overwrite⟩
  · rw [rheap, holds]
    exact owned.exclusive
  · rw [rheap, holds]
    exact owned.complete

theorem owned_mod_conn (owned : Owned server) (change : NgxConnection → NgxConnection)
    (kept : (change (server.conns c)).recv.precvMemPointer =
      (server.conns c).recv.precvMemPointer) : Owned (server.modConn c change) :=
  owned_of_same owned
    (fun d => mod_conn_keeps (fun p => p.recv.precvMemPointer) server c d change kept)
    rfl rfl rfl rfl

theorem owned_store_bytes (owned : Owned server) (bytes : List Byte) :
    Owned (storeBytes server c bytes) := by
  unfold storeBytes
  split
  · exact owned_mod_conn owned _ rfl
  · exact ⟨Ownership.exclusive_modify owned.exclusive _ _,
      Ownership.complete_modify owned.complete _ _, owned.no_overwrite⟩

theorem owned_flood_check (owned : Owned server) (cfg : Config) (nowMs : Nat) :
    Owned (floodCheck cfg server c nowMs).1 := by
  unfold floodCheck
  split
  · dsimp only [testFlood]
    exact owned_mod_conn owned _ rfl
  · exact owned

theorem owned_alloc_buffer (owned : Owned server)
    (none : (server.conns c).recv.precvMemPointer = null) (ePkgLen : Nat) (junk : Nat → Byte) :
    Owned (allocBuffer server c ePkgLen junk) := by
  have pointers : ∀ d, ((allocBuffer server c ePkgLen junk).conns d).recv.precvMemPointer =
      if d = c then server.rheap.next else (server.conns d).recv.precvMemPointer := by
    intro d
    rw [allocBuffer, mod_conn_conns]
    split <;> rfl
  refine ⟨?_, ?_, ?_⟩
  · apply Ownership.exclusive_alloc owned.exclusive _ (.conn c)
    intro holder buf held
    cases holder with
    | conn d =>
        simp only [Holds, pointers] at held
        by_cases same : d = c
        · rw [if_pos same] at held
          exact Or.inr ⟨by rw [same], held.1.symm⟩
        · rw [if_neg same] at held
          exact Or.inl held
    | slot index => exact Or.inl held
    | worker worker => exact Or.inl held
  · refine Ownership.complete_alloc owned.complete _ (.conn c) ?_ ?_
    · intro holder buf held
      cases holder with
      | conn d =>
          simp only [Holds, pointers]
          have different : d ≠ c := by
            rintro rfl
            exact held.2 (held.1.symm.trans none)
          rw [if_neg different]
          exact held
      | slot index => exact held
      | worker worker => exact held
    · have positive := owned.exclusive.wellFormed.positive
      simp only [Holds, pointers, if_pos]
      exact ⟨trivial, Nat.ne_of_gt positive⟩
  · have fresh : (allocBuffer server c ePkgLen junk).ghost.p1Overwrites =
        server.ghost.p1Overwrites + if (server.conns c).recv.precvMemPointer = null then 0
          else 1 := rfl
    rw [fresh, if_pos none, owned.no_overwrite]

theorem plast_pointers (server : Server) (c : ConnId) (isflood : Bool) (d : ConnId) :
    ((ngxWaitRequestHandlerProcPlast server c isflood).conns d).recv.precvMemPointer =
      if d = c then null else (server.conns d).recv.precvMemPointer := by
  unfold ngxWaitRequestHandlerProcPlast
  rw [mod_conn_conns]
  split
  · rfl
  · split <;> rfl

theorem owned_free_pending (owned : Owned server)
    (pending : (server.conns c).recv.precvMemPointer ≠ null)
    (pointers : ∀ d, (after.conns d).recv.precvMemPointer =
      if d = c then null else (server.conns d).recv.precvMemPointer)
    (queue : after.msgRecvQueue = server.msgRecvQueue) (workers : after.workers = server.workers)
    (freed : after.rheap =
      BlockHeap.free server.rheap (server.conns c).recv.precvMemPointer)
    (overwrites : after.ghost.p1Overwrites = server.ghost.p1Overwrites) : Owned after := by
  have held : Holds server (.conn c) (server.conns c).recv.precvMemPointer := ⟨rfl, pending⟩
  refine ⟨?_, ?_, overwrites.trans owned.no_overwrite⟩
  · rw [freed]
    apply Ownership.exclusive_free owned.exclusive held
    intro holder buf now
    have before : Holds server holder buf ∧ holder ≠ .conn c := by
      cases holder with
      | conn d =>
          simp only [Holds, pointers] at now
          by_cases same : d = c
          · rw [if_pos same] at now
            exact absurd now.1.symm now.2
          · rw [if_neg same] at now
            exact ⟨now, by simp [same]⟩
      | slot index =>
          simp only [Holds, queue] at now
          exact ⟨now, by simp⟩
      | worker worker =>
          simp only [Holds, workers] at now
          exact ⟨now, by simp⟩
    refine ⟨before.1, ?_⟩
    rintro rfl
    exact before.2 (owned.exclusive.unique _ _ _ before.1 held)
  · rw [freed]
    apply Ownership.complete_free owned.complete pending
    intro holder buf before different
    cases holder with
    | conn d =>
        simp only [Holds, pointers]
        have other : d ≠ c := by
          rintro rfl
          exact different before.1.symm
        rw [if_neg other]
        exact before
    | slot index =>
        simp only [Holds, queue]
        exact before
    | worker worker =>
        simp only [Holds, workers]
        exact before

/-- A complete package goes to the receive queue, or is dropped by the flood
detection. -/
theorem owned_plast (owned : Owned server)
    (pending : (server.conns c).recv.precvMemPointer ≠ null) (isflood : Bool) :
    Owned (ngxWaitRequestHandlerProcPlast server c isflood) := by
  have pointers := plast_pointers server c isflood
  have held : Holds server (.conn c) (server.conns c).recv.precvMemPointer := ⟨rfl, pending⟩
  cases isflood with
  | false =>
      have queue : (ngxWaitRequestHandlerProcPlast server c false).msgRecvQueue =
          server.msgRecvQueue ++ [(server.conns c).recv.precvMemPointer] := rfl
      refine ⟨?_, ?_, owned.no_overwrite⟩
      · apply Ownership.exclusive_move owned.exclusive
          (fun holder _ => if holder = .conn c then .slot server.msgRecvQueue.length else holder)
        intro holder buf now
        cases holder with
        | conn d =>
            simp only [Holds, pointers] at now
            by_cases same : d = c
            · rw [if_pos same] at now
              exact absurd now.1.symm now.2
            · rw [if_neg same] at now
              exact ⟨.conn d, now, by simp [same]⟩
        | slot index =>
            simp only [Holds, queue, List.getElem?_append] at now
            split at now
            · exact ⟨.slot index, now, by simp⟩
            · have last : index = server.msgRecvQueue.length := by
                by_contra other
                rw [List.getElem?_eq_none (by simp only [List.length_singleton]; omega)] at now
                cases now
              rw [last, Nat.sub_self, List.getElem?_cons_zero, Option.some.injEq] at now
              exact ⟨.conn c, now ▸ held, by simp [last]⟩
        | worker worker => exact ⟨.worker worker, now, by simp⟩
      · apply Ownership.complete_move owned.complete
        intro holder buf before
        by_cases same : holder = .conn c
        · subst same
          refine ⟨.slot server.msgRecvQueue.length, ?_⟩
          simp only [Holds, queue, List.getElem?_concat_length, before.1]
        · refine ⟨holder, ?_⟩
          cases holder with
          | conn d =>
              simp only [Holds, pointers]
              rw [if_neg (fun equal => same (by rw [equal]))]
              exact before
          | slot index =>
              simp only [Holds, queue]
              rw [List.getElem?_append_left (List.getElem?_eq_some_iff.mp before).1]
              exact before
          | worker worker => exact before
  | true => exact owned_free_pending owned pending pointers rfl rfl rfl rfl

def ConnOk (recv : RecvPart) : Prop := InHeader recv ↔ recv.precvMemPointer = null

def OthersSame (before after : Server) (c : ConnId) : Prop :=
  ∀ d, d ≠ c → (after.conns d).recv = (before.conns d).recv

theorem others_refl (server : Server) (c : ConnId) : OthersSame server server c := fun _ _ => rfl

theorem others_trans {first second third : Server} (early : OthersSame first second c)
    (late : OthersSame second third c) : OthersSame first third c :=
  fun d different => (late d different).trans (early d different)

theorem others_mod_conn (server : Server) (c : ConnId) (change : NgxConnection → NgxConnection) :
    OthersSame server (server.modConn c change) c := by
  intro d different
  rw [mod_conn_conns, if_neg different]

theorem flood_check_recv (cfg : Config) (server : Server) (c d : ConnId) (nowMs : Nat) :
    ((floodCheck cfg server c nowMs).1.conns d).recv = (server.conns d).recv := by
  unfold floodCheck
  split
  · dsimp only [testFlood]
    exact mod_conn_keeps NgxConnection.recv server c d _ rfl
  · rfl

theorem plast_recv (server : Server) (c : ConnId) (isflood : Bool) :
    ConnOk ((ngxWaitRequestHandlerProcPlast server c isflood).conns c).recv := by
  unfold ngxWaitRequestHandlerProcPlast
  rw [mod_conn_conns_self]
  exact ⟨fun _ => rfl, fun _ => Or.inl rfl⟩

theorem plast_others (server : Server) (c : ConnId) (isflood : Bool) :
    OthersSame server (ngxWaitRequestHandlerProcPlast server c isflood) c := by
  unfold ngxWaitRequestHandlerProcPlast
  dsimp only
  split
  · exact others_mod_conn (inMsgRecvQueueAndSignal server _) c _
  · exact others_mod_conn { server with rheap := _ } c _

theorem alloc_buffer_others (server : Server) (c : ConnId) (ePkgLen : Nat) (junk : Nat → Byte) :
    OthersSame server (allocBuffer server c ePkgLen junk) c := by
  rw [allocBuffer]
  exact others_mod_conn { server with rheap := _, ghost := _ } c _

/-- What one connection owns is right after a receive step, and the others are
untouched. -/
structure Received (before after : Server) (c : ConnId) : Prop where
  owned : Owned after
  ok : ConnOk (after.conns c).recv
  others : OthersSame before after c

theorem received_alloc_flood_plast (owned : Owned server)
    (none : (server.conns c).recv.precvMemPointer = null) (cfg : Config) (ePkgLen : Nat)
    (junk : Nat → Byte) (nowMs : Nat) (isflood : Bool) :
    Received server (ngxWaitRequestHandlerProcPlast
      (floodCheck cfg (allocBuffer server c ePkgLen junk) c nowMs).1 c isflood) c := by
  have allocated := owned_alloc_buffer owned none ePkgLen junk
  have tested : Owned (floodCheck cfg (allocBuffer server c ePkgLen junk) c nowMs).1 :=
    owned_flood_check allocated cfg nowMs
  have positive := owned.exclusive.wellFormed.positive
  refine ⟨owned_plast tested ?_ isflood, plast_recv _ c isflood, ?_⟩
  · rw [flood_check_recv, allocBuffer, mod_conn_conns_self]
    exact Nat.ne_of_gt positive
  · have flood : OthersSame (allocBuffer server c ePkgLen junk)
        (floodCheck cfg (allocBuffer server c ePkgLen junk) c nowMs).1 c :=
      fun d _ => flood_check_recv cfg _ c d nowMs
    exact others_trans (others_trans (alloc_buffer_others server c ePkgLen junk) flood)
      (plast_others _ c isflood)

theorem received_proc_p1 (owned : Owned server)
    (none : (server.conns c).recv.precvMemPointer = null) (cfg : Config)
    (junk : Nat → Byte) (nowMs : Nat) :
    Received server (ngxWaitRequestHandlerProcP1 cfg server c junk nowMs).1 c := by
  have dropped : Received server (server.modConn c headWindow) c := by
    refine ⟨owned_mod_conn owned _ rfl, ?_, others_mod_conn server c _⟩
    rw [mod_conn_conns_self]
    exact ⟨fun _ => none, fun _ => Or.inl rfl⟩
  unfold ngxWaitRequestHandlerProcP1
  dsimp only
  split_ifs
  · exact dropped
  · exact dropped
  · exact received_alloc_flood_plast owned none cfg _ junk nowMs _
  · have positive := owned.exclusive.wellFormed.positive
    refine ⟨owned_mod_conn (owned_alloc_buffer owned none _ junk) _ rfl, ?_, ?_⟩
    · rw [mod_conn_conns_self, allocBuffer, mod_conn_conns_self]
      refine ⟨fun inHeader => ?_, fun isNull => ?_⟩
      · rcases inHeader with state | state <;> cases state
      · exact absurd isNull (Nat.ne_of_gt positive)
    · exact others_trans (alloc_buffer_others server c _ junk) (others_mod_conn _ c _)

theorem received_body_complete (owned : Owned server)
    (pending : (server.conns c).recv.precvMemPointer ≠ null) (cfg : Config) (nowMs : Nat) :
    Received server (bodyComplete cfg server c nowMs).1 c := by
  have tested : Owned (floodCheck cfg server c nowMs).1 := owned_flood_check owned cfg nowMs
  refine ⟨owned_plast tested ?_ _, plast_recv _ c _, ?_⟩
  · rw [flood_check_recv]
    exact pending
  · exact others_trans (fun d _ => flood_check_recv cfg server c d nowMs) (plast_others _ c _)

/-- One receive step, whatever its state and however many bytes arrived. -/
theorem received_states (owned : Owned server) (ok : ConnOk (server.conns c).recv) (cfg : Config)
    (reco : Nat) (junk : Nat → Byte) (nowMs : Nat) :
    Received server (receiveStates cfg server c reco junk nowMs).1 c := by
  have advanced : ∀ stat, (InHeader { (server.conns c).recv with curStat := stat } ↔
      InHeader (server.conns c).recv) →
      Received server (server.modConn c (advanceRecv stat reco)) c := by
    intro stat kept
    refine ⟨owned_mod_conn owned _ rfl, ?_, others_mod_conn server c _⟩
    rw [mod_conn_conns_self]
    exact kept.trans ok
  unfold receiveStates
  dsimp only
  split
  case h_1 state =>
    have header : InHeader (server.conns c).recv := Or.inl state
    split
    · exact received_proc_p1 owned (ok.mp header) cfg junk nowMs
    · exact advanced _ ⟨fun _ => header, fun _ => Or.inr rfl⟩
  case h_2 state =>
    have header : InHeader (server.conns c).recv := Or.inr state
    split
    · exact received_proc_p1 owned (ok.mp header) cfg junk nowMs
    · exact advanced _ ⟨fun _ => header, fun _ => Or.inr rfl⟩
  case h_3 state =>
    have body : ¬ InHeader (server.conns c).recv := by simp [InHeader, state]
    split
    · exact received_body_complete owned (fun isNull => body (ok.mpr isNull)) cfg nowMs
    · exact advanced _ ⟨fun header => by simp [InHeader] at header, fun header => absurd header body⟩
  case h_4 state =>
    have body : ¬ InHeader (server.conns c).recv := by simp [InHeader, state]
    split
    · exact received_body_complete owned (fun isNull => body (ok.mpr isNull)) cfg nowMs
    · exact advanced _ ⟨fun header => by simp [InHeader] at header, fun header => absurd header body⟩

theorem received_store_bytes (owned : Owned server) (ok : ConnOk (server.conns c).recv)
    (bytes : List Byte) : Received server (storeBytes server c bytes) c := by
  refine ⟨owned_store_bytes owned bytes, ?_, ?_⟩
  · unfold storeBytes
    split
    · rw [mod_conn_conns_self]
      exact ok
    · exact ok
  · unfold storeBytes
    split
    · exact others_mod_conn server c _
    · exact others_refl server c

end OneConnection

structure Sound (server : Server) : Prop where
  owned : Owned server
  states : StatesOk server

structure RecvState where
  recvs : ConnId → RecvPart
  rheap : BlockHeap.Heap MsgBuf
  queue : List Nat
  workers : Nat → Worker
  overwrites : Nat

def recvState (server : Server) : RecvState where
  recvs := fun c => (server.conns c).recv
  rheap := server.rheap
  queue := server.msgRecvQueue
  workers := server.workers
  overwrites := server.ghost.p1Overwrites

def Spare (server : Server) (c : ConnId) : Prop :=
  c ∈ server.freeconnectionList ∨ server.connObjects ≤ c

section Process

variable {server after : Server}

theorem sound_of_same (sound : Sound server) (same : recvState after = recvState server)
    (occ : ∀ c, after.ghost.occ c ≠ none → server.ghost.occ c ≠ none)
    (spare : ∀ c, Spare after c → Spare server c) : Sound after := by
  have recvs : ∀ c, (after.conns c).recv = (server.conns c).recv :=
    fun c => congrFun (congrArg RecvState.recvs same) c
  refine ⟨owned_of_same sound.owned (fun c => by rw [recvs c]) (congrArg RecvState.queue same)
    (congrArg RecvState.workers same) (congrArg RecvState.rheap same)
    (congrArg RecvState.overwrites same), ?_, ?_, ?_⟩
  · intro c
    rw [recvs c]
    exact sound.states.head_empty c
  · intro c live
    rw [recvs c]
    exact sound.states.body_full c (occ c live)
  · intro c idle
    rw [recvs c]
    exact sound.states.spare_empty c (spare c idle)

structure PoolPart where
  occ : ConnId → Option OccId
  free : List ConnId
  objects : Nat

def poolPart (server : Server) : PoolPart where
  occ := server.ghost.occ
  free := server.freeconnectionList
  objects := server.connObjects

theorem occ_of_same (same : poolPart after = poolPart server) (c : ConnId)
    (live : after.ghost.occ c ≠ none) : server.ghost.occ c ≠ none := by
  have occ := congrFun (congrArg PoolPart.occ same) c
  exact fun ended => live (occ.trans ended)

theorem spare_of_same (same : poolPart after = poolPart server) (c : ConnId)
    (spare : Spare after c) : Spare server c := by
  have free : after.freeconnectionList = server.freeconnectionList := congrArg PoolPart.free same
  have objects : after.connObjects = server.connObjects := congrArg PoolPart.objects same
  rwa [Spare, free, objects] at spare

theorem sound_of_send (sound : Sound server) (same : forgetSend after = forgetSend server) :
    Sound after := by
  have recvs := congrArg recvState same
  have pool := congrArg poolPart same
  exact sound_of_same sound recvs (occ_of_same pool) (spare_of_same pool)

theorem sound_of_monitor (sound : Sound server)
    (same : forgetMonitor after = forgetMonitor server) : Sound after := by
  have recvs := congrArg recvState same
  have pool := congrArg poolPart same
  exact sound_of_same sound recvs (occ_of_same pool) (spare_of_same pool)

theorem sound_of_eq (sound : Sound server) (recvs : recvState after = recvState server)
    (pool : poolPart after = poolPart server) : Sound after :=
  sound_of_same sound recvs (occ_of_same pool) (spare_of_same pool)

theorem sound_mod_conn (sound : Sound server) (c : ConnId)
    (change : NgxConnection → NgxConnection)
    (kept : (change (server.conns c)).recv = (server.conns c).recv) :
    Sound (server.modConn c change) := by
  have recvs : (recvState (server.modConn c change)).recvs = (recvState server).recvs :=
    funext fun d => mod_conn_keeps NgxConnection.recv server c d change kept
  exact sound_of_eq sound (congrArg (fun recvs => { recvState server with recvs := recvs }) recvs)
    rfl

theorem sound_zd (sound : Sound server) (cfg : Config) (c : ConnId) (now : Int) :
    Sound (zdClosesocketProc cfg server c now) := by
  have same := forget_close_zd cfg server c now
  have recvs := congrArg recvState same
  have free := congrArg Server.freeconnectionList same
  have objects := congrArg Server.connObjects same
  refine sound_of_same sound recvs ?_ ?_
  · intro d live
    rw [zd_occ, Function.update_apply] at live
    split at live
    · exact absurd rfl live
    · exact live
  · intro d spare
    have older : d ∈ (forgetClose (zdClosesocketProc cfg server c now)).freeconnectionList ∨
        (forgetClose (zdClosesocketProc cfg server c now)).connObjects ≤ d := spare
    rw [free, objects] at older
    exact older

theorem sound_of_received {c : ConnId} (sound : Sound server)
    (same : forgetRecv after = forgetRecv server) (live : server.ghost.occ c ≠ none)
    (busy : ¬ Spare server c) (received : Received server after c) : Sound after := by
  have pool : poolPart after = poolPart server := by
    have forgotten := congrArg poolPart same
    exact forgotten
  refine ⟨received.owned, ?_, ?_, ?_⟩
  · intro d header
    by_cases this : d = c
    · rw [this] at header ⊢
      exact received.ok.mp header
    · rw [received.others d this] at header ⊢
      exact sound.states.head_empty d header
  · intro d alive body
    by_cases this : d = c
    · rw [this] at body ⊢
      exact fun isNull => body (received.ok.mpr isNull)
    · rw [received.others d this] at body ⊢
      exact sound.states.body_full d (occ_of_same pool d alive) body
  · intro d spare
    have before := spare_of_same pool d spare
    have other : d ≠ c := by
      rintro rfl
      exact busy before
    rw [received.others d other]
    exact sound.states.spare_empty d before

theorem sound_conn_ok {c : ConnId} (sound : Sound server) (live : server.ghost.occ c ≠ none) :
    ConnOk (server.conns c).recv := by
  refine ⟨sound.states.head_empty c, fun isNull => ?_⟩
  by_contra body
  exact sound.states.body_full c live body isNull

theorem sound_read_request_handler (sound : Sound server) (cfg : Config) (c : ConnId)
    (outcome : RecvOutcome) (junk : Nat → Byte) (nowMs : Nat) (now : Int)
    (busy : ¬ Spare server c)
    (live : (server.conns c).fd ≠ -1 → server.ghost.occ c ≠ none) :
    Sound (ngxReadRequestHandler cfg server c outcome junk nowMs now) := by
  have closed := sound_zd sound cfg c now
  unfold ngxReadRequestHandler recvproc
  split_ifs with shut
  · exact closed
  · cases outcome with
    | data bytes =>
        have alive := live shut
        have stored := received_store_bytes sound.owned (sound_conn_ok sound alive) bytes
        have handled := received_states stored.owned stored.ok cfg bytes.length junk nowMs
        have same := (forget_recv_receive_states cfg (storeBytes server c bytes) c bytes.length
          junk nowMs).trans (forget_recv_store_bytes server c bytes)
        have received := sound_of_received sound same alive busy
          ⟨handled.owned, handled.ok, others_trans stored.others handled.others⟩
        dsimp only
        split
        · exact sound_zd received cfg c now
        · exact received
    | closed => exact closed
    | again => exact sound
    | error => exact closed

theorem sound_queue_reply (sound : Sound server) (cfg : Config) (msg : MsgBuf) (now : Int) :
    Sound (queueReply cfg server msg now) := by
  obtain ⟨sent, same, ends⟩ := queue_reply_frame cfg server msg now
  have kept := sound_of_send sound same
  rcases ends with queued | ⟨-, closed⟩
  · rw [queued]
    exact kept
  · rw [closed]
    exact sound_zd kept cfg _ now

theorem free_connection_pointers (server : Server) (c d : ConnId) :
    ((ngxFreeConnection server c).conns d).recv.precvMemPointer =
      if d = c then null else (server.conns d).recv.precvMemPointer := by
  unfold ngxFreeConnection putOneToFree
  dsimp only
  rw [mod_conn_conns]
  split <;> rfl

/-- Returning a connection to the free list frees the buffer it was filling. -/
theorem sound_free_connection (sound : Sound server) (c : ConnId) :
    Sound (ngxFreeConnection server c) := by
  have pointers := free_connection_pointers server c
  have freed : (ngxFreeConnection server c).rheap =
      BlockHeap.free server.rheap (server.conns c).recv.precvMemPointer := rfl
  have curStats : ∀ d, InHeader ((ngxFreeConnection server c).conns d).recv ↔
      InHeader (server.conns d).recv := by
    intro d
    have kept := mod_conn_keeps (fun p => p.recv.curStat) server c d (fun q =>
      { q with
        iCurrsequence := q.iCurrsequence + 1
        recv.precvMemPointer := null
        send := { q.send with psendMemPointer := null, iThrowsendCount := 0 } }) rfl
    have same : ((ngxFreeConnection server c).conns d).recv.curStat =
        (server.conns d).recv.curStat := kept
    rw [InHeader, InHeader, same]
  refine ⟨?_, ?_, ?_, ?_⟩
  · by_cases isNull : (server.conns c).recv.precvMemPointer = null
    · rw [isNull, BlockHeap.free_null] at freed
      refine owned_of_same sound.owned ?_ rfl rfl freed rfl
      intro d
      rw [pointers]
      split
      case isTrue same => rw [same, isNull]
      case isFalse => rfl
    · exact owned_free_pending sound.owned isNull pointers rfl rfl freed rfl
  · intro d header
    rw [pointers]
    split
    · rfl
    · exact sound.states.head_empty d ((curStats d).mp header)
  · intro d live body
    have alive : (Function.update server.ghost.occ c none) d ≠ none := live
    rw [Function.update_apply] at alive
    split at alive
    · exact absurd rfl alive
    case isFalse other =>
      rw [pointers, if_neg other]
      exact sound.states.body_full d alive fun header => body ((curStats d).mpr header)
  · intro d spare
    rw [pointers]
    split
    · rfl
    case isFalse other =>
      apply sound.states.spare_empty d
      rcases spare with listed | outside
      · have member : d ∈ server.freeconnectionList ++ [c] := listed
        rcases List.mem_append.mp member with older | new
        · exact Or.inl older
        · exact absurd (List.mem_singleton.mp new) other
      · exact Or.inr outside

/-- An object that starts to receive a header has no buffer. -/
theorem sound_reset {c : ConnId} (sound : Sound server) (spare : Spare server c)
    (others : OthersSame server after c) (header : InHeader (after.conns c).recv)
    (none : (after.conns c).recv.precvMemPointer = null)
    (queue : after.msgRecvQueue = server.msgRecvQueue)
    (workers : after.workers = server.workers) (rheap : after.rheap = server.rheap)
    (overwrites : after.ghost.p1Overwrites = server.ghost.p1Overwrites)
    (occ : ∀ d, d ≠ c → after.ghost.occ d = server.ghost.occ d)
    (spares : ∀ d, Spare after d → Spare server d) : Sound after := by
  have pointers : ∀ d, (after.conns d).recv.precvMemPointer =
      (server.conns d).recv.precvMemPointer := by
    intro d
    by_cases same : d = c
    · rw [same, none, sound.states.spare_empty c spare]
    · rw [others d same]
  refine ⟨owned_of_same sound.owned pointers queue workers rheap overwrites, ?_, ?_, ?_⟩
  · intro d receives
    by_cases same : d = c
    · rw [same, none]
    · rw [others d same] at receives ⊢
      exact sound.states.head_empty d receives
  · intro d live body
    by_cases same : d = c
    · rw [same] at body
      exact absurd header body
    · rw [others d same] at body ⊢
      rw [occ d same] at live
      exact sound.states.body_full d live body
  · intro d idle
    rw [pointers]
    exact sound.states.spare_empty d (spares d idle)

theorem get_connection_spare (server : Server) (isock now : Int) :
    Spare server (ngxGetConnection server isock now).1 := by
  unfold ngxGetConnection
  split
  case h_1 c rest front => exact Or.inl (by simp [front])
  case h_2 exhausted => exact Or.inr (Nat.le_refl _)

theorem get_connection_spares (server : Server) (isock now : Int) (d : ConnId)
    (spare : Spare (ngxGetConnection server isock now).2 d) : Spare server d := by
  unfold ngxGetConnection at spare
  split at spare
  case h_1 c rest front =>
    exact spare.imp_left fun listed => front ▸ List.mem_cons_of_mem c listed
  case h_2 exhausted => exact spare.imp_right Nat.le_of_succ_le

theorem get_connection_header (server : Server) (isock now : Int) :
    (((ngxGetConnection server isock now).2.conns
      (ngxGetConnection server isock now).1).recv.curStat = .hdInit) ∧
    (((ngxGetConnection server isock now).2.conns
      (ngxGetConnection server isock now).1).recv.precvMemPointer = null) := by
  obtain ⟨base, _, _, _, _, _, -, same⟩ := ngx_get_connection_frame server isock now
  rw [same]
  simp [getOneToUse]

theorem sound_get_connection (sound : Sound server) (isock now : Int) :
    Sound (ngxGetConnection server isock now).2 := by
  obtain ⟨state, empty⟩ := get_connection_header server isock now
  have spare := get_connection_spare server isock now
  have spares := get_connection_spares server isock now
  obtain ⟨base, _, _, _, _, _, -, same⟩ := ngx_get_connection_frame server isock now
  refine sound_reset sound spare ?_ (Or.inl state) empty ?_ ?_ ?_ ?_ ?_ spares
  · intro d different
    rw [same]
    exact congrArg NgxConnection.recv (Function.update_of_ne different _ _)
  · rw [same]
  · rw [same]
  · rw [same]
  · rw [same]
  · intro d _
    rw [same]

theorem sound_open_occupancy {c : ConnId} (sound : Sound server)
    (header : InHeader (server.conns c).recv) : Sound (openOccupancy server c) := by
  refine ⟨owned_of_same sound.owned (fun _ => rfl) rfl rfl rfl rfl, sound.states.head_empty, ?_,
    sound.states.spare_empty⟩
  intro d live body
  have other : d ≠ c := by
    rintro rfl
    exact body header
  have alive : Function.update server.ghost.occ c (some server.ghost.nextOcc) d ≠ none := live
  rw [Function.update_of_ne other] at alive
  exact sound.states.body_full d alive body

theorem sound_close_if_open (sound : Sound server) (c : ConnId) : Sound (closeIfOpen server c) := by
  have same := forget_close_close_if_open server c
  have recvs := congrArg recvState same
  refine sound_of_eq sound recvs ?_
  unfold closeIfOpen
  split <;> rfl

theorem sound_register_connection (sound : Sound server) (cfg : Config) (newc : ConnId) (s : Int)
    (nonblockOk ctlOk : Bool) (now : Int) :
    Sound (registerConnection cfg server newc s nonblockOk ctlOk now) := by
  have closed : ∀ state, Sound state → Sound (ngxCloseConnection state newc) :=
    fun state holds => sound_close_if_open (sound_free_connection holds newc) newc
  have handled := sound_mod_conn sound newc
    (fun p => { p with rhandler := .ngxReadRequestHandler }) rfl
  have registered := sound_of_send handled (forget_send_epoll_oper
    (server.modConn newc fun p => { p with rhandler := .ngxReadRequestHandler }) s .add
    (epollIn ||| epollRdhup) 0 newc ctlOk)
  unfold registerConnection
  split
  · exact closed server sound
  · dsimp only
    split
    · exact closed _ registered
    · split
      · exact sound_of_eq registered rfl rfl
      · exact sound_of_eq registered rfl rfl

theorem sound_accept_socket (sound : Sound server) (cfg : Config) (s : Int)
    (nonblockOk ctlOk : Bool) (now : Int) :
    Sound (acceptSocket cfg server s nonblockOk ctlOk now) := by
  unfold acceptSocket
  split_ifs
  · exact sound_of_eq sound rfl rfl
  · exact sound_of_eq sound rfl rfl
  · have issued := sound_get_connection sound s now
    have header := get_connection_header server s now
    exact sound_register_connection (sound_open_occupancy issued (Or.inl header.1)) cfg _ s
      nonblockOk ctlOk now

theorem sound_event_accept (cfg : Config) (nonblockOk ctlOk : Bool) (now : Int)
    (outcomes : List AcceptOutcome) (server : Server) (sound : Sound server) :
    Sound (ngxEventAccept cfg server nonblockOk ctlOk now outcomes) := by
  induction outcomes generalizing server with
  | nil => exact sound
  | cons outcome rest ih =>
      cases outcome with
      | ok s =>
          have opened : Sound (openSocket server s) := sound_of_eq sound rfl rfl
          exact sound_accept_socket opened cfg s nonblockOk ctlOk now
      | err code =>
          unfold ngxEventAccept
          split_ifs
          · exact sound
          · exact ih { server with useAccept4 := false } (sound_of_eq sound rfl rfl)
          · exact sound

theorem sound_add_free_connection (sound : Sound server) (now : Int) :
    Sound (addFreeConnection now server) := by
  have conns : ((addFreeConnection now server).conns server.connObjects) =
      getOneToUse now NgxConnection.construct :=
    mod_conn_conns_self server server.connObjects fun _ => getOneToUse now NgxConnection.construct
  refine sound_reset (c := server.connObjects) sound (Or.inr (Nat.le_refl _))
    (others_mod_conn server server.connObjects fun _ => getOneToUse now NgxConnection.construct)
    (by rw [conns]; exact Or.inl rfl) (by rw [conns]; rfl) rfl rfl rfl rfl (fun _ _ => rfl) ?_
  rintro d (listed | outside)
  · have member : d ∈ server.freeconnectionList ++ [server.connObjects] := listed
    rcases List.mem_append.mp member with older | new
    · exact Or.inl older
    · exact Or.inr (Nat.le_of_eq (List.mem_singleton.mp new).symm)
  · exact Or.inr (Nat.le_of_succ_le outside)

theorem sound_initconnection (sound : Sound server) (cfg : Config) (now : Int) :
    Sound (initconnection cfg now server) := by
  have filled : ∀ count state, Sound state →
      Sound (Nat.iterate (addFreeConnection now) count state) := by
    intro count
    induction count with
    | zero => exact fun _ holds => holds
    | succ count ih =>
        exact fun state holds => ih _ (sound_add_free_connection holds now)
  exact sound_of_eq (filled cfg.workerConnections server sound) rfl rfl

theorem sound_listen_on (sound : Sound server) (ctl : Int → Bool) (now fd : Int)
    (done : listenOn ctl now server fd = some after) : Sound after := by
  have issued := sound_get_connection sound fd now
  have marked : Sound (markListening (ngxGetConnection server fd now).2
      (ngxGetConnection server fd now).1) := by
    rw [markListening]
    refine sound_mod_conn ?_ _ _ rfl
    exact sound_of_eq issued rfl rfl
  unfold listenOn at done
  dsimp only at done
  split at done
  · cases done
  · cases done
    exact sound_of_send marked (forget_send_epoll_oper _ _ _ _ _ _ _)

theorem sound_epoll_init (sound : Sound server) (cfg : Config) (ctl : Int → Bool) (now : Int)
    (done : ngxEpollInit cfg server ctl now = some after) : Sound after := by
  have reserved : ∀ fds state, Sound state →
      List.foldlM (listenOn ctl now) state fds = some after → Sound after := by
    intro fds
    induction fds with
    | nil =>
        intro state holds same
        cases same
        exact holds
    | cons fd rest ih =>
        intro state holds loops
        rw [List.foldlM_cons] at loops
        obtain ⟨next, listens, later⟩ := Option.bind_eq_some_iff.mp loops
        exact ih next (sound_listen_on holds ctl now fd listens) later
  exact reserved server.listenFds _ (sound_initconnection sound cfg now) done

theorem sound_release_connection (sound : Sound server) (c : ConnId) :
    Sound (releaseConnection server c) := by
  have erased : Sound
      { server with
        totolRecyconnectionN := server.totolRecyconnectionN - 1
        recyconnectionList := server.recyconnectionList.erase c } := sound_of_eq sound rfl rfl
  exact sound_free_connection erased c

theorem sound_recy_connection_pass (sound : Sound server) (cfg : Config)
    (currtime gStopEvent : Int) :
    Sound (serverRecyConnectionPass cfg server currtime gStopEvent) := by
  have looped : ∀ rounds state, Sound state →
      Sound (lblRRTD cfg currtime gStopEvent rounds state) := by
    intro rounds
    induction rounds with
    | zero => exact fun _ holds => holds
    | succ rounds ih =>
        intro state holds
        unfold lblRRTD
        split
        · exact holds
        case h_2 c found => exact ih _ (sound_release_connection holds c)
  unfold serverRecyConnectionPass
  split
  · exact looped _ server sound
  · exact sound

theorem owned_take (owned : Owned server) {worker jobbuf : Nat} {rest : List Nat}
    (idle : server.workers worker = .idle) (front : server.msgRecvQueue = jobbuf :: rest) :
    Owned
      { server with
        workers := Function.update server.workers worker (.taken jobbuf)
        msgRecvQueue := rest
        iRecvMsgQueueCount := server.iRecvMsgQueueCount - 1 } := by
  refine ⟨?_, ?_, owned.no_overwrite⟩
  · apply Ownership.exclusive_move owned.exclusive (fun holder _ =>
      match holder with
      | .slot 0 => .worker worker
      | .slot (index + 1) => .slot index
      | other => other)
    intro holder buf now
    cases holder with
    | conn c => exact ⟨.conn c, now, rfl⟩
    | slot index =>
        refine ⟨.slot (index + 1), ?_, rfl⟩
        simp only [Holds, front, List.getElem?_cons_succ]
        exact now
    | worker other =>
        simp only [Holds, Function.update_apply] at now
        split at now
        case isTrue same =>
          refine ⟨.slot 0, ?_, by rw [same]⟩
          simp only [Holds, front, List.getElem?_cons_zero]
          rcases now with taken | processed
          · cases taken
            rfl
          · cases processed
        case isFalse => exact ⟨.worker other, now, rfl⟩
  · apply Ownership.complete_move owned.complete
    intro holder buf before
    cases holder with
    | conn c => exact ⟨.conn c, before⟩
    | slot index =>
        cases index with
        | zero =>
            refine ⟨.worker worker, ?_⟩
            simp only [Holds, front, List.getElem?_cons_zero, Option.some.injEq] at before
            simp only [Holds, Function.update_self, before]
            exact Or.inl trivial
        | succ index =>
            refine ⟨.slot index, ?_⟩
            simp only [Holds, front, List.getElem?_cons_succ] at before
            exact before
    | worker other =>
        refine ⟨.worker other, ?_⟩
        have different : other ≠ worker := by
          rintro rfl
          rw [Holds, idle] at before
          rcases before with taken | processed
          · cases taken
          · cases processed
        simp only [Holds, Function.update_of_ne different]
        exact before

theorem owned_processed (owned : Owned server) {worker jobbuf : Nat}
    (holds : server.workers worker = .taken jobbuf) :
    Owned { server with workers := Function.update server.workers worker (.processed jobbuf) } := by
  have same : Holds { server with
      workers := Function.update server.workers worker (.processed jobbuf) } = Holds server := by
    funext holder buf
    cases holder with
    | conn c => rfl
    | slot index => rfl
    | worker other =>
        by_cases this : other = worker
        · simp [Holds, this, holds]
        · simp [Holds, Function.update_of_ne this]
  refine ⟨?_, ?_, owned.no_overwrite⟩
  · rw [same]
    exact owned.exclusive
  · rw [same]
    exact owned.complete

theorem owned_release (owned : Owned server) {worker jobbuf : Nat}
    (holds : server.workers worker = .processed jobbuf) :
    Owned
      { server with
        workers := Function.update server.workers worker .idle
        rheap := BlockHeap.free server.rheap jobbuf } := by
  have held : Holds server (.worker worker) jobbuf := Or.inr holds
  refine ⟨?_, ?_, owned.no_overwrite⟩
  · apply Ownership.exclusive_free owned.exclusive held
    intro holder buf now
    have before : Holds server holder buf ∧ holder ≠ .worker worker := by
      cases holder with
      | conn c => exact ⟨now, by simp⟩
      | slot index => exact ⟨now, by simp⟩
      | worker other =>
          by_cases same : other = worker
          · simp [Holds, same] at now
          · simp only [Holds, Function.update_of_ne same] at now
            exact ⟨now, by simp [same]⟩
    refine ⟨before.1, ?_⟩
    rintro rfl
    exact before.2 (owned.exclusive.unique _ _ _ before.1 held)
  · apply Ownership.complete_free owned.complete
      (Ownership.held_ne_null owned.exclusive held)
    intro holder buf before different
    cases holder with
    | conn c => exact before
    | slot index => exact before
    | worker other =>
        have other_ne : other ≠ worker := by
          rintro rfl
          rw [Holds, holds] at before
          rcases before with taken | processed
          · cases taken
          · cases processed
            exact different rfl
        simp only [Holds, Function.update_of_ne other_ne]
        exact before

theorem sound_process_message (sound : Sound server) (cfg : Config) (jobbuf : Nat)
    (junk : Nat → Byte) (now : Int) : Sound (processMessage cfg server jobbuf junk now) := by
  rcases process_message_cases cfg server jobbuf junk now with
    same | ⟨msg, dispatched, live, current, logged, ends⟩
  · rw [same]
    exact sound
  · have early : Sound dispatched := by
      rw [logged]
      exact sound_of_eq sound rfl rfl
    rcases ends with silent | ⟨answer, noted, header, -, notes, replies⟩
    · rw [silent]
      exact early
    · rw [replies]
      refine sound_queue_reply ?_ cfg answer now
      rcases notes with same | same
      · rw [same]
        exact early
      · rw [same]
        exact sound_mod_conn early _ _ rfl

theorem queue_reply_workers (cfg : Config) (server : Server) (msg : MsgBuf) (now : Int) :
    (queueReply cfg server msg now).workers = server.workers := by
  obtain ⟨sent, same, ends⟩ := queue_reply_frame cfg server msg now
  have kept : sent.workers = server.workers := by
    have forgotten := congrArg Server.workers same
    exact forgotten
  rcases ends with queued | ⟨-, closed⟩
  · rw [queued, kept]
  · have forgotten := congrArg Server.workers (forget_close_zd cfg sent msg.hdr.pConn now)
    rw [closed]
    exact forgotten.trans kept

theorem process_message_workers (cfg : Config) (server : Server) (jobbuf : Nat)
    (junk : Nat → Byte) (now : Int) :
    (processMessage cfg server jobbuf junk now).workers = server.workers := by
  rcases process_message_cases cfg server jobbuf junk now with
    same | ⟨msg, dispatched, live, current, logged, ends⟩
  · rw [same]
  · rcases ends with silent | ⟨answer, noted, header, -, notes, replies⟩
    · rw [silent, logged]
    · rw [replies, queue_reply_workers]
      rcases notes with same | same
      · rw [same, logged]
      · rw [same, logged]
        rfl

theorem sound_process (sound : Sound server) (cfg : Config) {worker jobbuf : Nat}
    (holds : server.workers worker = .taken jobbuf) (junk : Nat → Byte) (now : Int) :
    Sound
      { processMessage cfg server jobbuf junk now with
        workers := Function.update server.workers worker (.processed jobbuf) } := by
  have processed := sound_process_message sound cfg jobbuf junk now
  have workers := process_message_workers cfg server jobbuf junk now
  have still : (processMessage cfg server jobbuf junk now).workers worker = .taken jobbuf := by
    rw [workers, holds]
  have owned := owned_processed processed.owned still
  rw [workers] at owned
  exact ⟨owned, processed.states.head_empty, processed.states.body_full,
    processed.states.spare_empty⟩

theorem sound_ping_check (sound : Sound server) (cfg : Config) (tmpmsg : Nat)
    (curTime now : Int) : Sound (procPingTimeOutChecking cfg server tmpmsg curTime now) := by
  have freed : ∀ checked : Server, Sound checked → Sound (freeRecord checked tmpmsg) :=
    fun _ holds => sound_of_eq holds rfl rfl
  unfold procPingTimeOutChecking
  split
  · exact sound
  case h_2 record found =>
    apply freed _
    unfold kickOverdue
    split_ifs
    · have logged : Sound (logKick server record) := sound_of_eq sound rfl rfl
      exact sound_zd logged cfg record.pConn now
    · exact sound
    · exact sound

end Process

theorem in_service_busy {server : Server} {c : ConnId} (attributed : Attributed server)
    (serves : InService (poolView server) c) : ¬ Spare server c := by
  rintro (listed | outside)
  · exact serves.2.1 listed
  · exact Nat.lt_irrefl _ (Nat.lt_of_lt_of_le (attributed.settled.places.all_lt c serves.1) outside)

theorem sound_step {cfg : Config} {server after : Server} {act : Act}
    (attributed : Attributed server) (sound : Sound server) (disciplined : Disciplined server act)
    (taken : step cfg server act = some after) : Sound after := by
  cases stepped_of_step taken with
  | epollInit ctl now _ empty done => exact sound_epoll_init sound cfg ctl now done
  | accept oldc outcomes nonblockOk ctlOk now =>
      exact sound_event_accept cfg nonblockOk ctlOk now outcomes server sound
  | event c revents recv send ctlOk junk nowMs now =>
      refine sound_of_send ?_ (forget_send_write_side _ c revents send ctlOk)
      unfold readSide
      split
      · exact sound_read_request_handler sound cfg c recv junk nowMs now
          (in_service_busy attributed disciplined)
          (open_in_service attributed.settled disciplined)
      · exact sound
  | msgSend msg now => exact sound_queue_reply sound cfg msg now
  | semWait interrupted => exact sound_of_eq sound rfl rfl
  | beginPass => exact sound_of_eq sound rfl rfl
  | element outcome ctlOk pos pMsgBuf =>
      exact sound_of_send sound (forget_send_send_element server pos pMsgBuf outcome ctlOk)
  | endPass => exact sound_of_eq sound rfl rfl
  | take worker jobbuf rest idle front =>
      exact ⟨owned_take sound.owned idle front, sound.states.head_empty, sound.states.body_full,
        sound.states.spare_empty⟩
  | process worker jobbuf junk now holds => exact sound_process sound cfg holds junk now
  | release worker jobbuf holds =>
      exact ⟨owned_release sound.owned holds, sound.states.head_empty, sound.states.body_full,
        sound.states.spare_empty⟩
  | monitorPop curTime => exact sound_of_monitor sound (forget_monitor_pop cfg server curTime)
  | monitorCheck now tmpmsg rest =>
      refine sound_ping_check ?_ cfg tmpmsg server.monitorTime now
      exact sound_of_eq sound rfl rfl
  | recycle currtime => exact sound_recy_connection_pass sound cfg currtime 0
  | close c now => exact sound_zd sound cfg c now

theorem fresh_sound {server : Server} (fresh : Fresh server) : Sound server := by
  obtain ⟨listenFds, nodup, nonneg, rfl⟩ := fresh
  have unheld : ∀ holder buf, ¬ Holds (Server.construct listenFds) holder buf := by
    intro holder buf held
    cases holder with
    | conn c => exact held.2 held.1.symm
    | slot index => cases held
    | worker worker => rcases held with taken | processed <;> contradiction
  refine ⟨⟨⟨BlockHeap.empty_well_formed, ?_, ?_⟩, ?_, rfl⟩, ⟨fun _ _ => rfl, ?_, fun _ _ => rfl⟩⟩
  · exact fun holder buf held => absurd held (unheld holder buf)
  · exact fun holder _ buf held => absurd held (unheld holder buf)
  · intro buf live
    cases live
  · intro c live
    exact absurd rfl live

theorem reachable_sound {cfg : Config} {allowed : Server → Act → Prop} {server : Server}
    (disciplined : ∀ server act, allowed server act → Disciplined server act)
    (reached : Reachable cfg allowed server) : Attributed server ∧ Sound server := by
  refine TransitionSystem.invariant_of_step (fun server => Attributed server ∧ Sound server)
    ?_ ?_ reached
  · exact fun _ fresh => ⟨fresh_attributed fresh, fresh_sound fresh⟩
  · rintro before act after ⟨attributed, sound⟩ permitted taken
    have legal := disciplined before act permitted
    exact ⟨attributed_step attributed legal taken, sound_step attributed sound legal taken⟩

theorem release_frees_mono (server : Server) (c : ConnId) {buf : Nat}
    (freed : buf ∈ server.rheap.frees) : buf ∈ (releaseConnection server c).rheap.frees :=
  (BlockHeap.mem_free_frees _ _ _).mpr (Or.inr freed)

theorem lbl_rrtd_frees_mono (cfg : Config) (currtime gStopEvent : Int) (rounds : Nat)
    (server : Server) {buf : Nat} (freed : buf ∈ server.rheap.frees) :
    buf ∈ (lblRRTD cfg currtime gStopEvent rounds server).rheap.frees := by
  induction rounds generalizing server with
  | zero => exact freed
  | succ rounds ih =>
      unfold lblRRTD
      split
      · exact freed
      case h_2 c found => exact ih _ (release_frees_mono server c freed)

/-- A connection that the recycler returns to the free list loses its buffer. -/
theorem lbl_rrtd_returns (cfg : Config) (currtime gStopEvent : Int) (rounds : Nat)
    (server : Server) {c : ConnId} {buf : Nat} (held : Holds server (.conn c) buf)
    (free : c ∈ (lblRRTD cfg currtime gStopEvent rounds server).freeconnectionList) :
    c ∈ server.freeconnectionList ∨
      buf ∈ (lblRRTD cfg currtime gStopEvent rounds server).rheap.frees := by
  induction rounds generalizing server with
  | zero => exact Or.inl free
  | succ rounds ih =>
      unfold lblRRTD at free ⊢
      split at free
      case h_1 none => exact Or.inl free
      case h_2 d found =>
        by_cases same : c = d
        · refine Or.inr (lbl_rrtd_frees_mono cfg currtime gStopEvent rounds _ ?_)
          rw [← same, ← held.1]
          exact (BlockHeap.mem_free_frees _ _ _).mpr (Or.inl ⟨by rw [held.1]; exact held.2, rfl⟩)
        · have still : Holds (releaseConnection server d) (.conn c) buf := by
            have pointer := free_connection_pointers
              { server with
                totolRecyconnectionN := server.totolRecyconnectionN - 1
                recyconnectionList := server.recyconnectionList.erase d } d c
            rw [if_neg same] at pointer
            exact ⟨pointer.trans held.1, held.2⟩
          apply (ih (releaseConnection server d) still free).imp_left
          intro listed
          have member : c ∈ server.freeconnectionList ++ [d] := listed
          rcases List.mem_append.mp member with older | new
          · exact older
          · exact absurd (List.mem_singleton.mp new) same

theorem zd_free (cfg : Config) (server : Server) (c : ConnId) (now : Int) :
    (zdClosesocketProc cfg server c now).freeconnectionList = server.freeconnectionList := by
  have forgotten := congrArg Server.freeconnectionList (forget_close_zd cfg server c now)
  exact forgotten

theorem may_retire_free {before after : Server} {c : ConnId} (retires : MayRetire before after c) :
    after.freeconnectionList = before.freeconnectionList := by
  rcases retires with same | retired
  · exact congrArg QuarantinePool.Pool.free same
  · have free := congrArg QuarantinePool.Pool.free retired
    exact free.trans (QuarantinePool.retire_free (poolView before) c)

theorem process_message_free (cfg : Config) (server : Server) (jobbuf : Nat)
    (junk : Nat → Byte) (now : Int) :
    (processMessage cfg server jobbuf junk now).freeconnectionList =
      server.freeconnectionList := by
  rcases process_message_cases cfg server jobbuf junk now with
    same | ⟨msg, dispatched, live, current, logged, ends⟩
  · rw [same]
  · rcases ends with silent | ⟨answer, noted, header, -, notes, replies⟩
    · rw [silent, logged]
    · rw [replies, may_retire_free (queue_reply_view cfg noted answer now)]
      rcases notes with same | same
      · rw [same, logged]
      · rw [same, logged]
        rfl

theorem ping_check_free (cfg : Config) (server : Server) (tmpmsg : Nat) (curTime now : Int) :
    (procPingTimeOutChecking cfg server tmpmsg curTime now).freeconnectionList =
      server.freeconnectionList := by
  unfold procPingTimeOutChecking
  split
  · rfl
  case h_2 record found =>
    have kicked : (kickOverdue cfg server record curTime now).freeconnectionList =
        server.freeconnectionList := by
      unfold kickOverdue
      split_ifs
      · exact zd_free cfg (logKick server record) record.pConn now
      · rfl
      · rfl
    exact kicked

theorem register_connection_free (cfg : Config) (server : Server) (newc : ConnId) (s : Int)
    (nonblockOk ctlOk : Bool) (now : Int) (c : ConnId)
    (free : c ∈ (registerConnection cfg server newc s nonblockOk ctlOk now).freeconnectionList) :
    c ∈ server.freeconnectionList ∨ c = newc := by
  have closed : ∀ state, (ngxCloseConnection state newc).freeconnectionList =
      state.freeconnectionList ++ [newc] := by
    intro state
    unfold ngxCloseConnection closeIfOpen
    split <;> rfl
  have registered := congrArg Server.freeconnectionList (forget_send_epoll_oper
    (server.modConn newc fun p => { p with rhandler := .ngxReadRequestHandler }) s .add
    (epollIn ||| epollRdhup) 0 newc ctlOk)
  have same : ((ngxEpollOperEvent
      (server.modConn newc fun p => { p with rhandler := .ngxReadRequestHandler }) s .add
      (epollIn ||| epollRdhup) 0 newc ctlOk).1).freeconnectionList =
        server.freeconnectionList := registered
  unfold registerConnection at free
  split at free
  · rw [closed, List.mem_append, List.mem_singleton] at free
    exact free
  · dsimp only at free
    split at free
    · rw [closed, same, List.mem_append, List.mem_singleton] at free
      exact free
    · rw [← same]
      split at free <;> exact Or.inl free

theorem event_accept_spare (cfg : Config) (nonblockOk ctlOk : Bool) (now : Int)
    (outcomes : List AcceptOutcome) (server : Server) (c : ConnId)
    (free : c ∈ (ngxEventAccept cfg server nonblockOk ctlOk now outcomes).freeconnectionList) :
    Spare server c := by
  induction outcomes generalizing server with
  | nil => exact Or.inl free
  | cons outcome rest ih =>
      cases outcome with
      | ok s =>
          have spare : Spare (openSocket server s) c := by
            unfold ngxEventAccept acceptSocket at free
            split_ifs at free
            · exact Or.inl free
            · exact Or.inl free
            · rcases register_connection_free cfg _ _ s nonblockOk ctlOk now c free with
                older | new
              · exact get_connection_spares (openSocket server s) s now c (Or.inl older)
              · rw [new]
                exact get_connection_spare (openSocket server s) s now
          exact spare
      | err code =>
          unfold ngxEventAccept at free
          split_ifs at free
          · exact Or.inl free
          · exact ih { server with useAccept4 := false } free
          · exact Or.inl free

theorem epoll_init_spare (cfg : Config) (server after : Server) (ctl : Int → Bool) (now : Int)
    (done : ngxEpollInit cfg server ctl now = some after) (c : ConnId)
    (free : c ∈ after.freeconnectionList) : Spare server c := by
  have grown : ∀ count state, Spare (Nat.iterate (addFreeConnection now) count state) c →
      Spare state c := by
    intro count
    induction count with
    | zero => exact fun _ => id
    | succ count ih =>
        intro state spare
        rcases ih (addFreeConnection now state) spare with listed | outside
        · have member : c ∈ state.freeconnectionList ++ [state.connObjects] := listed
          rcases List.mem_append.mp member with older | new
          · exact Or.inl older
          · exact Or.inr (Nat.le_of_eq (List.mem_singleton.mp new).symm)
        · exact Or.inr (Nat.le_of_succ_le outside)
  have listened : ∀ state next fd, listenOn ctl now state fd = some next → Spare next c →
      Spare state c := by
    intro state next fd listens spare
    apply get_connection_spares state fd now c
    unfold listenOn at listens
    dsimp only at listens
    split at listens
    · cases listens
    · cases listens
      have registered := congrArg poolPart (forget_send_epoll_oper
        (markListening (ngxGetConnection state fd now).2 (ngxGetConnection state fd now).1) fd .add
        (epollIn ||| epollRdhup) 0 (ngxGetConnection state fd now).1 (ctl fd))
      exact spare_of_same registered c spare
  have reserved : ∀ fds state, List.foldlM (listenOn ctl now) state fds = some after →
      Spare state c := by
    intro fds
    induction fds with
    | nil =>
        intro state same
        cases same
        exact Or.inl free
    | cons fd rest ih =>
        intro state loops
        rw [List.foldlM_cons] at loops
        obtain ⟨next, listens, later⟩ := Option.bind_eq_some_iff.mp loops
        exact listened state next fd listens (ih next later)
  have filled := reserved server.listenFds (initconnection cfg now server) done
  exact grown cfg.workerConnections server filled

/-- Whatever step returns a connection to the free list frees the buffer that it
was filling. -/
theorem returned_buffer_freed {cfg : Config} {server after : Server} {act : Act} {c : ConnId}
    {buf : Nat} (sound : Sound server) (taken : step cfg server act = some after)
    (held : Holds server (.conn c) buf) (free : c ∈ after.freeconnectionList) :
    buf ∈ after.rheap.frees := by
  have busy : ¬ Spare server c := by
    intro spare
    exact held.2 (held.1.symm.trans (sound.states.spare_empty c spare))
  have kept : after.freeconnectionList = server.freeconnectionList →
      buf ∈ after.rheap.frees := fun same => absurd (Or.inl (same ▸ free)) busy
  cases stepped_of_step taken with
  | epollInit ctl now _ empty done =>
      exact absurd (epoll_init_spare cfg server after ctl now done c free) busy
  | accept oldc outcomes nonblockOk ctlOk now =>
      exact absurd (event_accept_spare cfg nonblockOk ctlOk now outcomes server c free) busy
  | event d revents recv send ctlOk junk nowMs now =>
      exact kept (may_retire_free (event_view cfg server d revents recv send ctlOk junk nowMs now))
  | msgSend msg now => exact kept (may_retire_free (queue_reply_view cfg server msg now))
  | semWait interrupted => exact kept rfl
  | beginPass => exact kept rfl
  | element outcome ctlOk pos pMsgBuf =>
      have forgotten := congrArg Server.freeconnectionList
        (forget_send_send_element server pos pMsgBuf outcome ctlOk)
      exact kept forgotten
  | endPass => exact kept rfl
  | take worker jobbuf rest => exact kept rfl
  | process worker jobbuf junk now =>
      exact kept (process_message_free cfg server jobbuf junk now)
  | release worker jobbuf => exact kept rfl
  | monitorPop curTime =>
      have forgotten := congrArg Server.freeconnectionList (forget_monitor_pop cfg server curTime)
      exact kept forgotten
  | monitorCheck now tmpmsg rest =>
      exact kept (ping_check_free cfg { server with lsIdleList := rest } tmpmsg
        server.monitorTime now)
  | recycle currtime =>
      have returned : c ∈ server.freeconnectionList ∨
          buf ∈ (serverRecyConnectionPass cfg server currtime 0).rheap.frees := by
        unfold serverRecyConnectionPass at free ⊢
        by_cases waiting : server.totolRecyconnectionN > 0
        · rw [if_pos waiting] at free ⊢
          exact lbl_rrtd_returns cfg currtime 0 _ server held free
        · rw [if_neg waiting] at free
          exact Or.inl free
      exact returned.resolve_left fun listed => busy (Or.inl listed)
  | close d now => exact kept (zd_free cfg server d now)

structure BufferOwnership (server : Server) : Prop where
  /-- a buffer that is not freed yet has exactly one owner -/
  one_owner : ∀ buf, (server.rheap.block buf).isSome → ∃! holder, Holds server holder buf
  /-- nobody owns a freed buffer -/
  owned_live : ∀ holder buf, Holds server holder buf → (server.rheap.block buf).isSome
  freed_once : server.rheap.frees.Nodup
  freed_dead : ∀ buf ∈ server.rheap.frees, server.rheap.block buf = none
  no_overwrite : server.ghost.p1Overwrites = 0

theorem sound_buffer_ownership {server : Server} (sound : Sound server) :
    BufferOwnership server where
  one_owner := by
    intro buf live
    obtain ⟨holder, held⟩ := sound.owned.complete buf live
    exact ⟨holder, held, fun other also =>
      sound.owned.exclusive.unique other holder buf also held⟩
  owned_live := sound.owned.exclusive.live
  freed_once := sound.owned.exclusive.wellFormed.once
  freed_dead := fun buf freed => (sound.owned.exclusive.wellFormed.dead buf freed).2
  no_overwrite := sound.owned.no_overwrite

def midPackage : List Act :=
  [.epollInit (fun _ => true) 1000, .accept 0 [.ok 5] true true 1001,
    .event 1 epollIn (.data [0, 10, 0, 0, 0, 0, 0, 0]) .eagain true (fun _ => 0) 0 1002,
    .close 1 1003]

end NgxServer.RecvOwnership
