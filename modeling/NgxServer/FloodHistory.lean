import NgxServer.ByteStream
import NgxServer.Lib.GapCounter
import NgxServer.Security

/-!
# What the flood test sees

`TestFlood` is called from three places, when a package is complete, and keeps
a time and a counter in the connection object. Over the packages of one
occupancy they are the last arrival and the number of short gaps before it, so
that a client is closed exactly when `m_floodKickCount` gaps in a row are
shorter than `m_floodTimeInterval`.
-/

namespace NgxServer.FloodHistory

open NgxServer.Comm NgxServer.State NgxServer.ConnPool NgxServer.TimerQueue NgxServer.Socket
open NgxServer.Request NgxServer.Accept NgxServer.Logic NgxServer.System NgxServer.Frames
open NgxServer.PoolRefinement NgxServer.Occupancy NgxServer.RecvOwnership NgxServer.Reassembly
open NgxServer.ByteStream NgxServer.Security
open BlockHeap (null)
open GapCounter (Counter tick LastShort RunsBelow)
open StreamSplitter (cut)
open QuarantinePool (InService)

set_option autoImplicit false

def testedPart (cfg : Config) (part : SecurityPart) (iCurrTime : Nat) : SecurityPart :=
  { part with
    floodAttackCount :=
      if subU64 iCurrTime part.floodkickLastTime < cfg.floodTimeInterval then
        part.floodAttackCount + 1
      else 0
    floodkickLastTime := iCurrTime }

structure Untested (server : Server) (result : Server × Bool) : Prop where
  passes : result.2 = false
  security : ∀ d, (result.1.conns d).security = (server.conns d).security

structure Tested (cfg : Config) (server : Server) (c : ConnId) (nowMs : Nat)
    (result : Server × Bool) : Prop where
  verdict : result.2 =
    decide ((testedPart cfg (server.conns c).security nowMs).floodAttackCount ≥ cfg.floodKickCount)
  security : ∀ d, (result.1.conns d).security =
    if d = c then testedPart cfg (server.conns c).security nowMs else (server.conns d).security

section Receive

variable {cfg : Config} {server : Server} {c : ConnId}

theorem flood_check_tested (enabled : cfg.floodAkEnable = 1) (server : Server) (c : ConnId)
    (nowMs : Nat) : Tested cfg server c nowMs (floodCheck cfg server c nowMs) := by
  rw [floodCheck, if_pos enabled]
  refine ⟨rfl, fun d => ?_⟩
  rw [testFlood, mod_conn_conns]
  split <;> rfl

theorem plast_security (server : Server) (c d : ConnId) (isflood : Bool) :
    ((ngxWaitRequestHandlerProcPlast server c isflood).conns d).security =
      (server.conns d).security := by
  unfold ngxWaitRequestHandlerProcPlast
  dsimp only
  split
  · exact mod_conn_keeps NgxConnection.security _ c d _ rfl
  · exact mod_conn_keeps NgxConnection.security _ c d _ rfl

theorem alloc_buffer_security (server : Server) (c d : ConnId) (ePkgLen : Nat)
    (junk : Nat → Byte) :
    ((allocBuffer server c ePkgLen junk).conns d).security = (server.conns d).security := by
  rw [allocBuffer]
  exact mod_conn_keeps NgxConnection.security _ c d _ rfl

theorem store_bytes_security (server : Server) (c d : ConnId) (bytes : List Byte) :
    ((storeBytes server c bytes).conns d).security = (server.conns d).security := by
  unfold storeBytes
  split
  · exact mod_conn_keeps NgxConnection.security server c d _ rfl
  · rfl

theorem tested_plast {before : Server} {nowMs : Nat} {tested : Server × Bool}
    (test : Tested cfg before c nowMs tested) :
    Tested cfg before c nowMs (ngxWaitRequestHandlerProcPlast tested.1 c tested.2, tested.2) :=
  ⟨test.verdict, fun d => (plast_security ..).trans (test.security d)⟩

theorem tested_of_same {before stored : Server} {nowMs : Nat} {result : Server × Bool}
    (same : ∀ d, (stored.conns d).security = (before.conns d).security)
    (test : Tested cfg stored c nowMs result) : Tested cfg before c nowMs result := by
  refine ⟨?_, fun d => ?_⟩
  · rw [test.verdict, same]
  · rw [test.security, same, same]

theorem untested_mod_conn (server : Server) (c : ConnId) (change : NgxConnection → NgxConnection)
    (kept : (change (server.conns c)).security = (server.conns c).security) :
    Untested server (server.modConn c change, false) :=
  ⟨rfl, fun d => mod_conn_keeps NgxConnection.security server c d change kept⟩

theorem untested_of_same {before stored : Server} {result : Server × Bool}
    (same : ∀ d, (stored.conns d).security = (before.conns d).security)
    (idle : Untested stored result) : Untested before result :=
  ⟨idle.passes, fun d => (idle.security d).trans (same d)⟩

/-- A header is tested when it is all of a package. -/
theorem proc_p1_tests (enabled : cfg.floodAkEnable = 1) (server : Server) (c : ConnId)
    (junk : Nat → Byte) (nowMs : Nat) :
    pkgLen (server.conns c).recv.dataHeadInfo ≠ lenPkgHeader ∧
        Untested server (ngxWaitRequestHandlerProcP1 cfg server c junk nowMs) ∨
      pkgLen (server.conns c).recv.dataHeadInfo = lenPkgHeader ∧
        Tested cfg server c nowMs (ngxWaitRequestHandlerProcP1 cfg server c junk nowMs) := by
  unfold ngxWaitRequestHandlerProcP1
  dsimp only
  split_ifs with short long alone
  · exact Or.inl ⟨Nat.ne_of_lt short, untested_mod_conn server c headWindow rfl⟩
  · simp only [pkgMaxLength] at long
    exact Or.inl ⟨by simp only [lenPkgHeader]; omega, untested_mod_conn server c headWindow rfl⟩
  · have tested := tested_plast (flood_check_tested enabled
      (allocBuffer server c (pkgLen (server.conns c).recv.dataHeadInfo) junk) c nowMs)
    exact Or.inr ⟨alone, tested_of_same (fun d => alloc_buffer_security ..) tested⟩
  · have idle := untested_mod_conn
      (allocBuffer server c (pkgLen (server.conns c).recv.dataHeadInfo) junk) c
      (bodyWindow (pkgLen (server.conns c).recv.dataHeadInfo)) rfl
    exact Or.inl ⟨alone, untested_of_same (fun d => alloc_buffer_security ..) idle⟩

theorem untested_advance (server : Server) (c : ConnId) (bytes : List Byte) (stat : CurStat) :
    Untested server
      ((storeBytes server c bytes).modConn c (advanceRecv stat bytes.length), false) :=
  untested_of_same (fun d => store_bytes_security server c d bytes)
    (untested_mod_conn _ c _ rfl)

/-- The bytes of a header complete a package only if it has no body. -/
theorem head_bytes_tests (enabled : cfg.floodAkEnable = 1) {rest bytes : List Byte}
    (head : HoldsHead (server.conns c).recv rest)
    (size : (server.conns c).recv.dataHeadInfo.length = dataBufsize)
    (fits : bytes.length ≤ (server.conns c).recv.irecvlen) (junk : Nat → Byte) (nowMs : Nat) :
    (emitted (rest ++ bytes)).length = 0 ∧ Untested server
        (receiveStates cfg (storeBytes server c bytes) c bytes.length junk nowMs) ∨
      (emitted (rest ++ bytes)).length = 1 ∧ Tested cfg server c nowMs
        (receiveStates cfg (storeBytes server c bytes) c bytes.length junk nowMs) := by
  have stored : ∀ d, ((storeBytes server c bytes).conns d).security = (server.conns d).security :=
    fun d => store_bytes_security server c d bytes
  have missing := head.missing
  rw [receive_states_stored cfg head size fits]
  split
  case isTrue complete =>
    obtain ⟨-, received⟩ := stored_head head size fits
    have header : (rest ++ bytes).length = 8 := by
      rw [List.length_append]
      simp only [lenPkgHeader] at missing
      omega
    have len : pkgLen ((storeBytes server c bytes).conns c).recv.dataHeadInfo =
        pkgLen (rest ++ bytes) := by
      rw [← received, pkg_len_take (by rw [List.length_append] at header; omega)]
    rcases proc_p1_tests enabled (storeBytes server c bytes) c junk nowMs with
      ⟨other, idle⟩ | ⟨alone, test⟩
    · refine Or.inl ⟨?_, untested_of_same stored idle⟩
      rw [len] at other
      simp only [lenPkgHeader] at other
      by_cases bad : pkgLen (rest ++ bytes) < 8 ∨ pkgLen (rest ++ bytes) > 29000
      · rw [emitted, cut_dropped header bad]
        rfl
      · rw [emitted, cut_waiting (by omega) (by omega) (by omega)]
        rfl
    · refine Or.inr ⟨?_, tested_of_same stored test⟩
      rw [len] at alone
      simp only [lenPkgHeader] at alone
      rw [emitted, cut_package (by omega) (by omega) (by omega)]
      rfl
  case isFalse incomplete =>
    refine Or.inl ⟨?_, untested_advance server c bytes _⟩
    simp only [lenPkgHeader] at missing
    rw [emitted, cut_short (by rw [List.length_append]; omega)]
    rfl

theorem body_bytes_tests (enabled : cfg.floodAkEnable = 1) {rest bytes : List Byte}
    (body : HoldsBody server c rest)
    (fits : bytes.length ≤ (server.conns c).recv.irecvlen) (junk : Nat → Byte) (nowMs : Nat) :
    (emitted (rest ++ bytes)).length = 0 ∧ Untested server
        (receiveStates cfg (storeBytes server c bytes) c bytes.length junk nowMs) ∨
      (emitted (rest ++ bytes)).length = 1 ∧ Tested cfg server c nowMs
        (receiveStates cfg (storeBytes server c bytes) c bytes.length junk nowMs) := by
  have stored : ∀ d, ((storeBytes server c bytes).conns d).security = (server.conns d).security :=
    fun d => store_bytes_security server c d bytes
  have missing := body.missing
  have bound := body.bound
  have header := body.header
  simp only [lenPkgHeader] at header
  have len : pkgLen (rest ++ bytes) = pkgLen rest := pkg_len_append (by omega)
  have conns : ((storeBytes server c bytes).conns c) = server.conns c := by
    rw [storeBytes, body.window]
  rw [receive_states_body cfg _ (by rw [conns]; exact body.states), conns]
  split
  case isTrue complete =>
    have test := tested_plast (flood_check_tested enabled (storeBytes server c bytes) c nowMs)
    refine Or.inr ⟨?_, tested_of_same stored test⟩
    rw [emitted, cut_package (by omega) (by omega) (by rw [List.length_append]; omega)]
    rfl
  case isFalse incomplete =>
    refine Or.inl ⟨?_, untested_advance server c bytes _⟩
    rw [emitted, cut_waiting (by omega) (by omega) (by rw [List.length_append]; omega)]
    rfl

/-- Whatever way it arrives in, a package is tested once, when it is complete. -/
theorem receive_states_tests (enabled : cfg.floodAkEnable = 1) {rest bytes : List Byte}
    (holding : Holding server c rest)
    (size : (server.conns c).recv.dataHeadInfo.length = dataBufsize)
    (fits : bytes.length ≤ (server.conns c).recv.irecvlen) (junk : Nat → Byte) (nowMs : Nat) :
    (emitted (rest ++ bytes)).length = 0 ∧ Untested server
        (receiveStates cfg (storeBytes server c bytes) c bytes.length junk nowMs) ∨
      (emitted (rest ++ bytes)).length = 1 ∧ Tested cfg server c nowMs
        (receiveStates cfg (storeBytes server c bytes) c bytes.length junk nowMs) := by
  rcases holding with head | body
  · exact head_bytes_tests enabled head size fits junk nowMs
  · exact body_bytes_tests enabled body fits junk nowMs

end Receive

def floodPart (part : SecurityPart) : Nat × Int :=
  (part.floodkickLastTime, part.floodAttackCount)

def Counts (part : SecurityPart) (counter : Counter) : Prop :=
  floodPart part = (counter.last, (counter.count : Int))

theorem zeroed_counts : Counts zeroed .zero := rfl

theorem sub_u64 {left right : Nat} (later : right ≤ left) (fits : left < 2 ^ 64) :
    subU64 left right = left - right := by
  rw [subU64]
  omega

/-- `TestFlood` is a tick of the counter, and its result says whether the counter has
reached the threshold. -/
theorem tested_part_counts (cfg : Config) {part : SecurityPart} {counter : Counter} {nowMs : Nat}
    (counts : Counts part counter) (later : counter.last ≤ nowMs) (fits : nowMs < 2 ^ 64) :
    Counts (testedPart cfg part nowMs) (tick cfg.floodTimeInterval counter nowMs) ∧
      ((testedPart cfg part nowMs).floodAttackCount ≥ cfg.floodKickCount ↔
        cfg.floodKickCount.toNat ≤ (tick cfg.floodTimeInterval counter nowMs).count) := by
  obtain ⟨last, count⟩ := Prod.ext_iff.mp counts
  dsimp only [floodPart] at last count
  have counted : (testedPart cfg part nowMs).floodAttackCount =
      ((tick cfg.floodTimeInterval counter nowMs).count : Int) := by
    simp only [testedPart, tick, last, sub_u64 later fits, count]
    split
    · rw [Nat.cast_succ]
    · rfl
  refine ⟨Prod.ext rfl counted, ?_⟩
  rw [counted, ge_iff_le, Int.toNat_le]

def completed (rest bytes : List Byte) (nowMs : Nat) : List Nat :=
  List.replicate (emitted (rest ++ bytes)).length nowMs

/-- A package that is complete moves the counter of its connection, and the test looks at
the counter then. -/
theorem reading_counts {cfg : Config} {server : Server} {c : ConnId} {rest bytes : List Byte}
    {counter : Counter} {nowMs : Nat} (enabled : cfg.floodAkEnable = 1)
    (holding : Holding server c rest)
    (size : (server.conns c).recv.dataHeadInfo.length = dataBufsize)
    (fits : bytes.length ≤ (server.conns c).recv.irecvlen)
    (counts : Counts (server.conns c).security counter)
    (clock : ∀ time ∈ completed rest bytes nowMs, counter.last ≤ time ∧ time < 2 ^ 64)
    (junk : Nat → Byte) :
    completed rest bytes nowMs = [] ∧ isflood cfg server c bytes junk nowMs = false ∧
        Counts ((receiveStates cfg (storeBytes server c bytes) c bytes.length junk nowMs).1.conns
          c).security counter ∨
      completed rest bytes nowMs = [nowMs] ∧
        (isflood cfg server c bytes junk nowMs = true ↔
          cfg.floodKickCount.toNat ≤ (tick cfg.floodTimeInterval counter nowMs).count) ∧
        Counts ((receiveStates cfg (storeBytes server c bytes) c bytes.length junk nowMs).1.conns
          c).security (tick cfg.floodTimeInterval counter nowMs) := by
  unfold completed at clock ⊢
  rcases receive_states_tests enabled holding size fits junk nowMs with
    ⟨waits, idle⟩ | ⟨complete, test⟩
  · refine Or.inl ⟨by rw [waits]; rfl, idle.passes, ?_⟩
    rw [idle.security]
    exact counts
  · rw [complete] at clock ⊢
    obtain ⟨later, before⟩ := clock nowMs (List.mem_singleton.mpr rfl)
    obtain ⟨ticked, reaches⟩ := tested_part_counts cfg counts later before
    refine Or.inr ⟨rfl, ?_, ?_⟩
    · have verdict : isflood cfg server c bytes junk nowMs = _ := test.verdict
      rw [verdict, decide_eq_true_iff, reaches]
    · rw [test.security, if_pos rfl]
      exact ticked

theorem reading_others {cfg : Config} {server : Server} {c d : ConnId} {rest bytes : List Byte}
    (enabled : cfg.floodAkEnable = 1) (holding : Holding server c rest)
    (size : (server.conns c).recv.dataHeadInfo.length = dataBufsize)
    (fits : bytes.length ≤ (server.conns c).recv.irecvlen) (other : d ≠ c) (junk : Nat → Byte)
    (nowMs : Nat) :
    ((receiveStates cfg (storeBytes server c bytes) c bytes.length junk nowMs).1.conns d).security =
      (server.conns d).security := by
  rcases receive_states_tests enabled holding size fits junk nowMs with ⟨-, idle⟩ | ⟨-, test⟩
  · exact idle.security d
  · rw [test.security, if_neg other]

section Steps

variable {cfg : Config} {server middle after : Server}

theorem continues_of_send (same : forgetSend after = forgetSend server) :
    Continues floodPart server after := by
  have kept : ∀ d, floodPart (after.conns d).security = floodPart (server.conns d).security := by
    intro d
    have part := congrArg (fun server => floodPart (server.conns d).security) same
    exact part
  have next := congrArg (fun server => server.ghost.nextOcc) same
  have occ := congrArg (fun server => server.ghost.occ) same
  exact continues_of_same kept next fun d => Or.inl (congrFun occ d)

theorem continues_of_monitor (same : forgetMonitor after = forgetMonitor server) :
    Continues floodPart server after := by
  have kept : ∀ d, floodPart (after.conns d).security = floodPart (server.conns d).security := by
    intro d
    have part := congrArg (fun server => floodPart (server.conns d).security) same
    exact part
  have next := congrArg (fun server => server.ghost.nextOcc) same
  have occ := congrArg (fun server => server.ghost.occ) same
  exact continues_of_same kept next fun d => Or.inl (congrFun occ d)

theorem continues_queue_reply (cfg : Config) (server : Server) (msg : MsgBuf) (now : Int) :
    Continues floodPart server (queueReply cfg server msg now) := by
  obtain ⟨sent, same, ends⟩ := queue_reply_frame cfg server msg now
  rcases ends with queued | ⟨-, closed⟩
  · rw [queued]
    exact continues_of_send same
  · rw [closed]
    exact continues_trans (continues_of_send same) (continues_zd cfg sent _ now)

theorem continues_process_message (cfg : Config) (server : Server) (jobbuf : Nat)
    (junk : Nat → Byte) (now : Int) :
    Continues floodPart server (processMessage cfg server jobbuf junk now) := by
  rcases process_message_cases cfg server jobbuf junk now with
    same | ⟨msg, dispatched, live, current, logged, ends⟩
  · rw [same]
    exact continues_refl server
  · have early : Continues floodPart server dispatched := by
      rw [logged]
      exact continues_of_same (fun _ => rfl) rfl fun _ => Or.inl rfl
    rcases ends with silent | ⟨answer, noted, -, -, notes, replies⟩
    · rw [silent]
      exact early
    · rw [replies]
      refine continues_trans early (continues_trans ?_ (continues_queue_reply cfg noted answer now))
      rcases notes with same | same
      · rw [same]
        exact continues_refl dispatched
      · rw [same]
        exact continues_mod_conn dispatched _ _ rfl

theorem continues_read_side {c : ConnId} {revents : BitVec 32} {recv : RecvOutcome}
    (idle : ¬(hasFlag revents epollIn = true ∧ ∃ bytes, recv = .data bytes)) (junk : Nat → Byte)
    (nowMs : Nat) (now : Int) :
    Continues floodPart server (readSide cfg server c revents recv junk nowMs now) := by
  unfold readSide
  split
  case isFalse => exact continues_refl server
  case isTrue readable =>
    unfold ngxReadRequestHandler recvproc
    split_ifs
    · exact continues_zd cfg server c now
    · cases recv with
      | data bytes => exact absurd ⟨readable, bytes, rfl⟩ idle
      | closed => exact continues_zd cfg server c now
      | again => exact continues_refl server
      | error => exact continues_zd cfg server c now

structure Reading where
  time : Nat
  bytes : List Byte
  deriving DecidableEq, Repr

/-- The readings of connection `c` in a step. -/
def readings (c : ConnId) : Act → List Reading
  | .event d revents (.data bytes) _ _ _ nowMs _ =>
      if d = c ∧ hasFlag revents epollIn = true then [{ time := nowMs, bytes := bytes }] else []
  | _ => []

theorem received_readings (c : ConnId) (act : Act) :
    received c act = (readings c act).map Reading.bytes := by
  cases act with
  | event d revents recv send ctlOk junk nowMs now =>
      cases recv with
      | data bytes =>
          simp only [received, readings]
          split <;> rfl
      | _ => rfl
  | _ => rfl

/-- A step without data leaves the counters of all clients alone. -/
theorem step_continues {act : Act} (attributed : Attributed server)
    (taken : step cfg server act = some after) (idle : ∀ c, readings c act = []) :
    Continues floodPart server after := by
  cases stepped_of_step taken with
  | epollInit ctl now _ empty done => exact continues_epoll_init attributed empty done
  | accept oldc outcomes nonblockOk ctlOk now =>
      exact continues_event_accept cfg nonblockOk ctlOk now outcomes server
  | event c revents recv send ctlOk junk nowMs now =>
      have noData : ¬(hasFlag revents epollIn = true ∧ ∃ bytes, recv = .data bytes) := by
        rintro ⟨readable, bytes, rfl⟩
        have none := idle c
        simp [readings, readable] at none
      exact continues_trans (continues_read_side noData junk nowMs now)
        (continues_of_send (forget_send_write_side _ c revents send ctlOk))
  | msgSend msg now => exact continues_queue_reply cfg server msg now
  | element outcome ctlOk pos pMsgBuf =>
      exact continues_of_send (forget_send_send_element server pos pMsgBuf outcome ctlOk)
  | process worker jobbuf junk now =>
      apply continues_trans (continues_process_message cfg server jobbuf junk now)
      exact continues_of_same (fun _ => rfl) rfl fun _ => Or.inl rfl
  | monitorPop curTime => exact continues_of_monitor (forget_monitor_pop cfg server curTime)
  | monitorCheck now tmpmsg rest =>
      have popped : Continues floodPart server { server with lsIdleList := rest } :=
        continues_of_same (fun _ => rfl) rfl fun _ => Or.inl rfl
      exact continues_trans popped (continues_ping_check cfg { server with lsIdleList := rest } tmpmsg
        server.monitorTime now)
  | recycle currtime => exact continues_recy_connection_pass cfg server currtime 0
  | close c now => exact continues_zd cfg server c now
  | _ => exact continues_of_same (fun _ => rfl) rfl fun _ => Or.inl rfl

/-- After an event the counters are as the receive states have left them. -/
theorem event_flood_part (cfg : Config) {c : ConnId} {revents : BitVec 32}
    (readable : hasFlag revents epollIn = true) (opened : (server.conns c).fd ≠ -1)
    (bytes : List Byte) (send : SendOutcome) (ctlOk : Bool) (junk : Nat → Byte) (nowMs : Nat)
    (now : Int) (d : ConnId) :
    floodPart ((writeSide (readSide cfg server c revents (.data bytes) junk nowMs now) c revents
        send ctlOk).conns d).security =
      floodPart ((receiveStates cfg (storeBytes server c bytes) c bytes.length junk nowMs).1.conns
        d).security := by
  have written := congrArg (fun server => floodPart (server.conns d).security)
    (forget_send_write_side (readSide cfg server c revents (.data bytes) junk nowMs now) c revents
      send ctlOk)
  apply written.trans
  have reading : readSide cfg server c revents (.data bytes) junk nowMs now =
      ngxReadRequestHandler cfg server c (.data bytes) junk nowMs now := if_pos readable
  have closed := congrArg (fun server => floodPart (server.conns d).security) (forget_close_zd cfg
    (receiveStates cfg (storeBytes server c bytes) c bytes.length junk nowMs).1 c now)
  have read : floodPart ((readSide cfg server c revents (.data bytes) junk nowMs now).conns
      d).security = floodPart ((receiveStates cfg (storeBytes server c bytes) c bytes.length junk
        nowMs).1.conns d).security := by
    rw [reading, read_request_handler_data cfg bytes opened]
    split
    · exact closed
    · rfl
  exact read

end Steps

/-- When the packages that a log completes were complete. -/
def arrivalsFrom : List Byte → List Reading → List Nat
  | _, [] => []
  | rest, reading :: log =>
      completed rest reading.bytes reading.time ++
        arrivalsFrom (cut packages (rest ++ reading.bytes)).2 log

def arrivals (log : List Reading) : List Nat := arrivalsFrom [] log

def streamOf (log : List Reading) : List Byte := log.flatMap Reading.bytes

theorem arrivals_from_append (log more : List Reading) {rest : List Byte}
    (whole : cut packages rest = ([], rest)) :
    arrivalsFrom rest (log ++ more) = arrivalsFrom rest log ++
      arrivalsFrom (cut packages (rest ++ streamOf log)).2 more := by
  induction log generalizing rest with
  | nil =>
      rw [streamOf, List.flatMap_nil, List.append_nil, whole]
      rfl
  | cons reading log ih =>
      have later := ih (StreamSplitter.cut_rest packages (rest ++ reading.bytes))
      have stream : rest ++ streamOf (reading :: log) = rest ++ reading.bytes ++ streamOf log := by
        rw [streamOf, List.flatMap_cons, List.append_assoc]
        rfl
      rw [stream, StreamSplitter.cut_append packages (rest ++ reading.bytes), List.cons_append,
        arrivalsFrom, arrivalsFrom, later, List.append_assoc]

theorem arrivals_append (log more : List Reading) :
    arrivals (log ++ more) =
      arrivals log ++ arrivalsFrom (cut packages (streamOf log)).2 more := by
  have added := arrivals_from_append log more (StreamSplitter.cut_nil packages)
  rwa [List.nil_append] at added

/-- The clock never goes back, fits in 64 bits, and starts at least one interval after 0. -/
structure Clock (interval : Nat) (times : List Nat) : Prop where
  rises : times.Pairwise (· ≤ ·)
  late : ∀ first ∈ times.head?, interval ≤ first
  fits : ∀ time ∈ times, time < 2 ^ 64

section Clock

variable {interval : Nat} {times more : List Nat}

theorem clock_earlier (clock : Clock interval (times ++ more)) : Clock interval times := by
  refine ⟨(List.pairwise_append.mp clock.rises).1, fun first starts => ?_, fun time seen => ?_⟩
  · apply clock.late first
    cases times with
    | nil => cases starts
    | cons time rest => exact starts
  · exact clock.fits time (List.mem_append_left more seen)

theorem clock_later (clock : Clock interval (times ++ more)) {time : Nat} (arrives : time ∈ more) :
    (times.foldl (tick interval) .zero).last ≤ time ∧ time < 2 ^ 64 := by
  refine ⟨?_, clock.fits time (List.mem_append_right times arrives)⟩
  rw [GapCounter.ticks times (clock_earlier clock).late]
  dsimp only
  cases last : times.getLast? with
  | none => exact Nat.zero_le time
  | some seen =>
      exact (List.pairwise_append.mp clock.rises).2.2 seen (List.mem_of_getLast? last) time arrives

end Clock

theorem readings_event {act : Act} (reads : ¬∀ c, readings c act = []) :
    ∃ d revents bytes send ctlOk junk nowMs now,
      act = .event d revents (.data bytes) send ctlOk junk nowMs now ∧
        hasFlag revents epollIn = true := by
  obtain ⟨c, noisy⟩ := not_forall.mp reads
  unfold readings at noisy
  split at noisy
  case h_1 d revents bytes send ctlOk junk nowMs now =>
    by_cases read : d = c ∧ hasFlag revents epollIn = true
    · exact ⟨d, revents, bytes, send, ctlOk, junk, nowMs, now, rfl, read.2⟩
    · exact absurd (if_neg read) noisy
  case h_2 => exact absurd rfl noisy

theorem arrivals_from_reading (c d : ConnId) (rest bytes : List Byte) {revents : BitVec 32}
    (readable : hasFlag revents epollIn = true) (send : SendOutcome) (ctlOk : Bool)
    (junk : Nat → Byte) (nowMs : Nat) (now : Int) :
    arrivalsFrom rest (readings c (.event d revents (.data bytes) send ctlOk junk nowMs now)) =
      if d = c then completed rest bytes nowMs else [] := by
  simp only [readings, readable, and_true]
  split
  · rw [arrivalsFrom, arrivalsFrom, List.append_nil]
  · rfl

/-- What one step adds to the arrivals of a client that it does not end: nothing, or one
package that does not bring the counter to the threshold. -/
theorem step_counts {cfg : Config} {server after : Server} {act : Act} {c : ConnId} {o : OccId}
    {rest : List Byte} {counter : Counter} (enabled : cfg.floodAkEnable = 1)
    (attributed : Attributed server) (sound : Sound server) (receiving : Receiving server)
    (disciplined : Disciplined server act) (taken : step cfg server act = some after)
    (serves : server.ghost.occ c = some o) (still : after.ghost.occ c = some o)
    (holding : Holding server c rest) (counts : Counts (server.conns c).security counter)
    (clock : ∀ time ∈ arrivalsFrom rest (readings c act), counter.last ≤ time ∧ time < 2 ^ 64) :
    arrivalsFrom rest (readings c act) = [] ∧ Counts (after.conns c).security counter ∨
      ∃ time, arrivalsFrom rest (readings c act) = [time] ∧
        (tick cfg.floodTimeInterval counter time).count < cfg.floodKickCount.toNat ∧
        Counts (after.conns c).security (tick cfg.floodTimeInterval counter time) := by
  by_cases idle : ∀ d, readings d act = []
  · refine Or.inl ⟨by rw [idle c]; rfl, ?_⟩
    rcases (step_continues attributed taken idle).lives c o still with ⟨-, kept⟩ | ⟨fresh, -⟩
    · exact kept.trans counts
    · have started := (settled_stamps attributed.settled).owner_lt c o serves
      exact absurd started (Nat.not_lt.mpr fresh)
  · obtain ⟨d, revents, bytes, send, ctlOk, junk, nowMs, now, rfl, readable⟩ := readings_event idle
    rw [arrivals_from_reading c d rest bytes readable] at clock ⊢
    cases stepped_of_step taken with
    | event _ _ _ _ _ _ _ _ handler reported possible =>
        simp only [RecvOutcome.possible, decide_eq_true_eq] at possible
        obtain ⟨opened, -, fits⟩ := possible
        have live := open_in_service attributed.settled disciplined opened
        have part := event_flood_part cfg readable opened bytes send ctlOk junk nowMs now c
        by_cases same : d = c
        · subst same
          rw [if_pos rfl] at clock ⊢
          have passes : isflood cfg server d bytes junk nowMs = false := by
            by_contra floods
            have closed := event_floods sound receiving live opened fits readable
              (Bool.not_eq_false _ ▸ floods) send ctlOk now
            rw [closed.flooded.occ, Function.update_self] at still
            cases still
          rcases reading_counts enabled holding (receiving.sizes d) fits counts clock junk with
            ⟨waits, -, kept⟩ | ⟨complete, verdict, ticked⟩
          · exact Or.inl ⟨waits, part.trans kept⟩
          · refine Or.inr ⟨nowMs, complete, ?_, part.trans ticked⟩
            rw [passes] at verdict
            exact Nat.lt_of_not_le fun reaches => Bool.false_ne_true (verdict.mpr reaches)
        · obtain ⟨other, held⟩ := receiving.holds d live
          have security := reading_others enabled held (receiving.sizes d) fits
            (fun equal => same equal.symm) junk nowMs
          rw [if_neg same]
          refine Or.inl ⟨rfl, part.trans ?_⟩
          exact (congrArg floodPart security).trans counts

/-- A run during which connection `c` serves occupancy `o`, with what its calls of `recv`
return and the buffers handed over for it. -/
inductive Observed (cfg : Config) (c : ConnId) (o : OccId) (start : Server) :
    Server → List Reading → List (Option MsgBuf) → Prop
  | refl : Observed cfg c o start start [] []
  | tail {before after : Server} {act : Act} {log : List Reading} {buffers : List (Option MsgBuf)}
      (run : Observed cfg c o start before log buffers) (serves : before.ghost.occ c = some o)
      (disciplined : Disciplined before act) (taken : step cfg before act = some after) :
      Observed cfg c o start after (log ++ readings c act) (buffers ++ handed c before act after)

/-- What has become of the packages that a client has completed. -/
structure Served (cfg : Config) (c : ConnId) (start server : Server) (log : List Reading)
    (buffers : List (Option MsgBuf)) : Prop where
  stamp : stampNow server c = stampNow start c
  holding : Holding server c (cut packages (streamOf log)).2
  queued : buffers =
    (emitted (streamOf log)).map fun pkg => some { hdr := stampNow start c, pkg := pkg }
  counts : Counts (server.conns c).security
    ((arrivals log).foldl (tick cfg.floodTimeInterval) .zero)
  spared : ∀ n < (arrivals log).length,
    ¬ LastShort cfg.floodTimeInterval cfg.floodKickCount.toNat ((arrivals log).take (n + 1))

section Runs

variable {cfg : Config} {c : ConnId} {o : OccId} {start server : Server} {log : List Reading}
  {buffers : List (Option MsgBuf)}

theorem observed_reachable (reached : Reachable cfg Disciplined start)
    (run : Observed cfg c o start server log buffers) : Reachable cfg Disciplined server := by
  induction run with
  | refl => exact reached
  | tail _ _ disciplined taken ih =>
      exact TransitionSystem.reachable_steps ih (TransitionSystem.steps_single disciplined taken)

theorem stream_of_append (log : List Reading) (c : ConnId) (act : Act) :
    streamOf (log ++ readings c act) = streamOf log ++ (received c act).flatten := by
  rw [streamOf, List.flatMap_append, received_readings, ← List.flatMap_def]
  rfl

/-- The counter after one more arrival, in terms of the history. -/
theorem reaches_iff {times : List Nat} {time : Nat}
    (clock : Clock cfg.floodTimeInterval (times ++ [time])) :
    cfg.floodKickCount.toNat ≤ (tick cfg.floodTimeInterval
        (times.foldl (tick cfg.floodTimeInterval) .zero) time).count ↔
      LastShort cfg.floodTimeInterval cfg.floodKickCount.toNat (times ++ [time]) := by
  rw [← GapCounter.reaches_iff clock.late, List.foldl_append]
  rfl

theorem observed_served (enabled : cfg.floodAkEnable = 1) (reached : Reachable cfg Disciplined start)
    (ready : Holding start c []) (zero : Counts (start.conns c).security .zero)
    (run : Observed cfg c o start server log buffers)
    (clock : Clock cfg.floodTimeInterval (arrivals log)) (serves : server.ghost.occ c = some o) :
    Served cfg c start server log buffers := by
  induction run with
  | refl =>
      have whole := holding_incomplete ready
      refine ⟨rfl, ?_, ?_, zero, fun n early => absurd early (Nat.not_lt_zero n)⟩
      · rw [streamOf, List.flatMap_nil, whole]
        exact ready
      · rw [streamOf, List.flatMap_nil, emitted, whole]
        rfl
  | @tail before after act log buffers run served disciplined taken ih =>
      rw [arrivals_append] at clock
      have so := ih (clock_earlier clock) served
      obtain ⟨⟨attributed, sound⟩, receiving⟩ :=
        reachable_receiving (observed_reachable reached run)
      obtain ⟨now, still⟩ := (step_parses attributed sound receiving disciplined taken served
        so.holding).resolve_right fun floods => by
          rw [floods.2.1] at serves
          cases serves
      have later := attributed_step attributed disciplined taken
      have effect := effect_step attributed disciplined taken
      have whole := StreamSplitter.cut_append packages (streamOf log) (received c act).flatten
      have counted := step_counts enabled attributed sound receiving disciplined taken served serves
        so.holding so.counts fun time arrives => clock_later clock arrives
      refine ⟨?_, ?_, ?_, ?_, ?_⟩
      · rw [stamp_now_kept attributed later effect served serves, so.stamp]
      · rw [stream_of_append, whole]
        exact still serves
      · rw [stream_of_append, emitted_append, so.queued, now, so.stamp, List.map_append]
      · rw [arrivals_append, List.foldl_append]
        rcases counted with ⟨none, kept⟩ | ⟨time, one, -, ticked⟩
        · rw [none]
          exact kept
        · rw [one]
          exact ticked
      · intro n early
        rw [arrivals_append] at early ⊢
        rcases counted with ⟨none, -⟩ | ⟨time, one, below, -⟩
        · rw [none, List.append_nil] at early ⊢
          exact so.spared n early
        · rw [one] at early clock ⊢
          by_cases last : n < (arrivals log).length
          · rw [List.take_append_of_le_length last]
            exact so.spared n last
          · rw [List.take_of_length_le (by rw [List.length_append, List.length_singleton]; omega),
              ← reaches_iff clock]
            exact Nat.not_le.mpr below

/-- A new client starts from zero, whoever used its object before. -/
theorem issued_zero {before : Server} {act : Act} (reached : Reachable cfg Disciplined before)
    (disciplined : Disciplined before act) (issued : step cfg before act = some start)
    (new : before.ghost.occ c ≠ some o) (serves : start.ghost.occ c = some o) :
    Counts (start.conns c).security .zero := by
  obtain ⟨⟨attributed, sound⟩, receiving⟩ := reachable_receiving reached
  cases step_receives attributed sound receiving disciplined issued with
  | silent silent =>
      have idle : ∀ d, readings d act = [] := by
        intro d
        have none := silent.received d
        rw [received_readings] at none
        exact List.map_eq_nil_iff.mp none
      rcases (step_continues attributed issued idle).lives c o serves with
        ⟨served, -⟩ | ⟨-, fresh⟩
      · exact absurd served new
      · exact fresh.trans zeroed_counts
  | feeds d bytes feeds =>
      rw [feeds.fed.occ] at serves
      exact absurd serves new
  | floods d bytes enabled floods =>
      rw [floods.flooded.occ] at serves
      exact absurd (serves_elsewhere serves).2 new

end Runs

structure Answered (cfg : Config) (c : ConnId) (o : OccId) (start server after : Server)
    (act : Act) (log : List Reading) (reading : Reading) (buffers : List (Option MsgBuf))
    (floods : Bool) : Prop where
  queued : buffers =
    (emitted (streamOf log)).map fun pkg => some { hdr := stampNow start c, pkg := pkg }
  spared : ∀ n < (arrivals log).length,
    ¬ LastShort cfg.floodTimeInterval cfg.floodKickCount.toNat ((arrivals log).take (n + 1))
  verdict : floods = true ↔
    arrivals (log ++ [reading]) = arrivals log ++ [reading.time] ∧
      LastShort cfg.floodTimeInterval cfg.floodKickCount.toNat (arrivals (log ++ [reading]))
  kicked : floods = true →
    after.msgRecvQueue = server.msgRecvQueue ∧
      after.rheap.block (packageBuffer server c) = none ∧
      after.ghost.occ c = none ∧ (after.conns c).fd = -1
  goesOn : floods = false →
    after.ghost.occ c = some o ∧ buffers ++ handed c server act after =
      (emitted (streamOf (log ++ [reading]))).map fun pkg =>
        some { hdr := stampNow start c, pkg := pkg }
  peaceful : RunsBelow cfg.floodTimeInterval cfg.floodKickCount.toNat
      (arrivals (log ++ [reading])) → floods = false

/-- The flood test on what a client receives next, from what it has received so far. -/
theorem served_verdict {cfg : Config} {c : ConnId} {start server : Server} {log : List Reading}
    {buffers : List (Option MsgBuf)} {bytes : List Byte} {nowMs : Nat}
    (enabled : cfg.floodAkEnable = 1) (soFar : Served cfg c start server log buffers)
    (size : HeadSize server c) (fits : bytes.length ≤ (server.conns c).recv.irecvlen)
    (clock : Clock cfg.floodTimeInterval (arrivals (log ++ [{ time := nowMs, bytes := bytes }])))
    (junk : Nat → Byte) :
    isflood cfg server c bytes junk nowMs = true ↔
      arrivals (log ++ [{ time := nowMs, bytes := bytes }]) = arrivals log ++ [nowMs] ∧
        LastShort cfg.floodTimeInterval cfg.floodKickCount.toNat
          (arrivals (log ++ [{ time := nowMs, bytes := bytes }])) := by
  have added := arrivals_append log [{ time := nowMs, bytes := bytes }]
  rw [arrivalsFrom, arrivalsFrom, List.append_nil] at added
  rcases reading_counts enabled soFar.holding size fits soFar.counts
    (fun time arrives => clock_later (added ▸ clock) arrives) junk with
    ⟨waits, passes, -⟩ | ⟨complete, reaches, -⟩
  · rw [added, waits, passes]
    simp
  · rw [complete] at added
    rw [added, reaches, FloodHistory.reaches_iff (added ▸ clock)]
    exact ⟨fun short => ⟨rfl, short⟩, And.right⟩

/-- The packages of a stream and of what is received next. -/
theorem emitted_reading (log : List Reading) (reading : Reading) :
    emitted (streamOf (log ++ [reading])) =
      emitted (streamOf log) ++ emitted ((cut packages (streamOf log)).2 ++ reading.bytes) := by
  have stream : streamOf (log ++ [reading]) = streamOf log ++ reading.bytes := by
    simp [streamOf]
  rw [stream, emitted_append]

/-- Over any run of the server, and however the stream of a client arrives, the flood test
says yes to a package exactly when the gaps between the last packages, as many as
`m_floodKickCount` says, are all shorter than `m_floodTimeInterval`. -/
theorem flood_is_history (cfg : Config) (enabled : cfg.floodAkEnable = 1)
    {before start server after : Server} {issue : Act} {c : ConnId} {o : OccId}
    {log : List Reading} {buffers : List (Option MsgBuf)} {revents : BitVec 32}
    {bytes : List Byte} {send : SendOutcome} {ctlOk : Bool} {junk : Nat → Byte} {nowMs : Nat}
    {now : Int} (reached : Reachable cfg Disciplined before)
    (permitted : Disciplined before issue) (issued : step cfg before issue = some start)
    (new : before.ghost.occ c ≠ some o) (started : start.ghost.occ c = some o)
    (run : Observed cfg c o start server log buffers) (serves : server.ghost.occ c = some o)
    (disciplined : Disciplined server (.event c revents (.data bytes) send ctlOk junk nowMs now))
    (readable : hasFlag revents epollIn = true)
    (taken : step cfg server (.event c revents (.data bytes) send ctlOk junk nowMs now) =
      some after)
    (clock : Clock cfg.floodTimeInterval
      (arrivals (log ++ [{ time := nowMs, bytes := bytes }]))) :
    Answered cfg c o start server after (.event c revents (.data bytes) send ctlOk junk nowMs now)
      log { time := nowMs, bytes := bytes } buffers (isflood cfg server c bytes junk nowMs) := by
  have ready := issued_holding reached permitted issued new started
  have zero := issued_zero reached permitted issued new started
  have startable := TransitionSystem.reachable_steps reached
    (TransitionSystem.steps_single permitted issued)
  obtain ⟨⟨attributed, sound⟩, receiving⟩ := reachable_receiving (observed_reachable startable run)
  have added := arrivals_append log [{ time := nowMs, bytes := bytes }]
  rw [arrivalsFrom, arrivalsFrom, List.append_nil] at added
  have soFar := observed_served enabled startable ready zero run
    (clock_earlier (added ▸ clock)) serves
  have parses := step_parses attributed sound receiving disciplined taken serves soFar.holding
  cases stepped_of_step taken with
  | event _ _ _ _ _ _ _ _ handler reported possible =>
      simp only [RecvOutcome.possible, decide_eq_true_eq] at possible
      obtain ⟨opened, -, fits⟩ := possible
      have live := open_in_service attributed.settled disciplined opened
      have verdict := served_verdict enabled soFar (receiving.sizes c) fits clock junk
      refine ⟨soFar.queued, soFar.spared, verdict, fun floods => ?_, fun passes => ?_,
        fun below => ?_⟩
      · have closed := event_floods sound receiving live opened fits readable floods send ctlOk now
        refine ⟨closed.flooded.queue, closed.flooded.freed, ?_, closed.flooded.fd⟩
        rw [closed.flooded.occ, Function.update_self]
      · have fed := event_feeds sound receiving live opened fits readable passes send ctlOk now
        have still := serves
        rw [← fed.fed.occ] at still
        refine ⟨still, ?_⟩
        obtain ⟨handedOver, -⟩ := parses.resolve_right fun floods => by
          rw [floods.2.1] at still
          cases still
        rw [handedOver, soFar.queued, soFar.stamp, fed.received, if_pos rfl, List.flatten_singleton,
          emitted_reading, List.map_append]
      · by_contra floods
        exact GapCounter.not_last_short below (verdict.mp (Bool.not_eq_false _ ▸ floods)).2

def impatient : Config := { sampleConfig with floodKickCount := 2 }

def alone : List Byte := [0, 8, 0, 0, 0, 0, 0, 0]

def recvAlone (nowMs : Nat) : Act :=
  .event 1 epollIn (.data alone) .eagain true (fun _ => 7) nowMs 1002

theorem alone_arrivals :
    arrivals [{ time := 1000, bytes := alone }, { time := 1050, bytes := alone },
      { time := 1149, bytes := alone }] = [1000, 1050, 1149] := by
  have whole : cut packages alone = ([.package alone], []) :=
    cut_package (by decide) (by decide) (by decide)
  simp only [arrivals, arrivalsFrom, completed, emitted, List.nil_append, whole]
  rfl

/-- The third of three packages is the second that follows too closely. -/
theorem flood_is_history_sample :
    ∃ start server after log buffers, Observed impatient 1 0 start server log buffers ∧
      Answered impatient 1 0 start server after (recvAlone 1149) log
        { time := 1149, bytes := alone } buffers true := by
  have seen : (run impatient Disciplined [.epollInit (fun _ => true) 1000]).map (fun before =>
      (step impatient before (.accept 0 [.ok 5] true true 1001)).bind fun start =>
        (step impatient start (recvAlone 1000)).bind fun first =>
          (step impatient first (recvAlone 1050)).bind fun server =>
            (step impatient server (recvAlone 1149)).map fun _ =>
              decide (before.ghost.occ 1 = none ∧ start.ghost.occ 1 = some 0 ∧
                first.ghost.occ 1 = some 0 ∧ server.ghost.occ 1 = some 0 ∧
                Disciplined start (recvAlone 1000) ∧ Disciplined first (recvAlone 1050) ∧
                Disciplined server (recvAlone 1149) ∧
                isflood impatient server 1 alone (fun _ => 7) 1149 = true)) =
      some (some true) := by
    decide
  obtain ⟨before, reached, stepped⟩ := reachable_of_seen seen
  obtain ⟨start, issued, stepped⟩ := Option.bind_eq_some_iff.mp stepped
  obtain ⟨first, taken, stepped⟩ := Option.bind_eq_some_iff.mp stepped
  obtain ⟨server, again, stepped⟩ := Option.bind_eq_some_iff.mp stepped
  obtain ⟨after, third, shown⟩ := Option.map_eq_some_iff.mp stepped
  obtain ⟨new, started, served, serves, one, two, three, floods⟩ := of_decide_eq_true shown
  have disciplined : Disciplined before (.accept 0 [.ok 5] true true 1001) := trivial
  have watched := Observed.tail (Observed.tail Observed.refl started one taken) served two again
  have clock : Clock impatient.floodTimeInterval (arrivals ([{ time := 1000, bytes := alone },
      { time := 1050, bytes := alone }] ++ [{ time := 1149, bytes := alone }])) := by
    rw [List.cons_append, List.cons_append, List.nil_append, alone_arrivals]
    exact ⟨by decide, by decide, by decide⟩
  have answered := flood_is_history impatient rfl reached disciplined issued (by simp [new]) started
    watched serves three rfl third clock
  rw [floods] at answered
  exact ⟨start, server, after, _, _, watched, answered⟩

end NgxServer.FloodHistory
