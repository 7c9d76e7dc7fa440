import NgxServer.Lib.LaneSweep
import NgxServer.Delivery
import NgxServer.SendBacklog

/-!
# The order in which replies are started

A pass of the send thread skips the packets of a connection that has one
pending, and `ngx_write_request_handler` may complete that one while the pass
goes on. A packet behind the skipped ones is then started before them: the
order 1, 3, 2 that the authors observed. Nothing else reorders the packets of
an occupancy.
-/

namespace NgxServer.SendOrder

open NgxServer.Comm NgxServer.State NgxServer.Socket NgxServer.Request NgxServer.Accept
open NgxServer.Logic NgxServer.System NgxServer.PoolRefinement NgxServer.Occupancy
open NgxServer.SendMachine NgxServer.SendRefinement NgxServer.Delivery NgxServer.SendBacklog
open LaneSweep (Seen Queue Ordered Overtakable CompletedInPass)
open BlockHeap (Heap null)
open QuarantinePool (Settled InService)

set_option autoImplicit false

/-- Disciplined steps with packets as the server builds them. Behind the read handler,
an event with `EPOLLOUT` for an open connection has no error or hang-up bit, and `send`
returns what it sent or `EAGAIN`. -/
def Orderly (cfg : Config) (server : Server) (act : Act) : Prop :=
  Disciplined server act ∧
    match act with
    | .msgSend msg _ => Sized msg
    | .event c revents recv send _ junk nowMs now =>
        hasFlag revents epollOut = true →
          (readSide cfg server c revents recv junk nowMs now).ghost.occ c ≠ none →
            hasFlag revents (epollErr ||| epollHup ||| epollRdhup) = false ∧ Normal send = true
    | _ => True

instance (cfg : Config) (server : Server) : DecidablePred (Orderly cfg server) :=
  decidableWith server (fun _ _ => inferInstanceAs (Decidable (Sized _)))
    (fun _ _ _ _ _ _ _ _ => inferInstanceAs (Decidable (_ → _ → _ ∧ _)))
    (fun _ _ => isTrue trivial)
    fun act inner => by cases act <;> first | exact trivial | exact inner.elim

abbrev Sight : Type := Seen Packet ConnId Nat

def pendingPacket (part : SendPart) : Option Nat :=
  if part.psendMemPointer = null then none else some part.psendMemPointer

def completes (server : Server) (c : ConnId) (send : SendOutcome) : Bool :=
  decide (sendsizeOn server c send > 0 ∧
    sendsizeOn server c send = (server.conns c).send.isendlen)

def seenAt (server : Server) (pMsgBuf : Nat) : Option Sight :=
  match server.sheap.block pMsgBuf with
  | none => none
  | some msg =>
      let p := server.conns msg.hdr.pConn
      if p.iCurrsequence ≠ msg.hdr.iCurrsequence then none
      else if p.send.iThrowsendCount > 0 then
        some (.skipped (pMsgBuf, msg) (pendingPacket p.send))
      else some (.started (pMsgBuf, msg))

/-- What an action shows of the order of sending: where passes begin and end, elements
that are skipped or started, and packets that the write handler completes. -/
def observe (cfg : Config) (server : Server) : Act → Option Sight
  | .beginPass => if server.iSendMsgQueueCount > 0 then some .passBegins else none
  | .endPass => some .passEnds
  | .element _ _ => (elementAt server).bind fun element => seenAt server element.2
  | .event c revents recv send _ junk nowMs now =>
      let served := readSide cfg server c revents recv junk nowMs now
      if hasFlag revents epollOut = true ∧
          hasFlag revents (epollErr ||| epollHup ||| epollRdhup) = false ∧
          completes served c send = true then
        some (.completed c (pendingPacket (served.conns c).send))
      else none
  | _ => none

structure Trace where
  server : Server
  log : List Sight

def traceStep (cfg : Config) (trace : Trace) (act : Act) : Option Trace :=
  (step cfg trace.server act).map fun after =>
    { server := after, log := trace.log ++ (observe cfg trace.server act).toList }

def TraceStart (trace : Trace) : Prop := Fresh trace.server ∧ trace.log = []

def TraceReachable (cfg : Config) : Trace → Prop :=
  TransitionSystem.Reachable TraceStart (traceStep cfg) fun trace act =>
    Orderly cfg trace.server act

def laneOf (packet : Packet) : ConnId := packet.2.hdr.pConn

def SameOccupancy (first second : Packet) : Prop := first.2.hdr.occ = second.2.hdr.occ

def holdsUp (part : SendPart) : Option Nat :=
  if part.iThrowsendCount > 0 then pendingPacket part else none

def iteratorOf : SendPc → Option Nat
  | .pass pos => some pos
  | _ => none

def laneQueue (state : SendState) (waiting : List Packet) : Queue Packet ConnId Nat where
  waiting := waiting
  queued := state.queued
  live := fun packet => state.occ packet.2.hdr.pConn = packet.2.hdr.occ
  pending := fun c => holdsUp (state.send c)
  iterator := iteratorOf state.pc

/-- At most one packet of an open connection is left to the write handler, and
it is the pending one. -/
def Throttled (state : SendState) : Prop :=
  ∀ c, state.occ c ≠ none → (state.send c).iThrowsendCount ≤ 1 ∧
    ((state.send c).iThrowsendCount > 0 → (state.send c).psendMemPointer ≠ null)

def threadCalls (sends : List SendCall) : List SendCall :=
  sends.filter fun call => !call.byWriteHandler

def startedPackets (log : List Sight) : List Packet :=
  log.filterMap fun seen =>
    match seen with
    | .started packet => some packet
    | _ => none

def FirstBytes (call : SendCall) (packet : Packet) : Prop :=
  call.source = some packet.2.hdr ∧ call.written <+: packet.2.pkg

structure Explained (state : SendState) (log : List Sight) : Prop where
  throttled : Throttled state
  calls : List.Forall₂ FirstBytes (threadCalls state.sends) (startedPackets log)
  ordered : ∃ waiting, waiting.map Prod.fst = state.queue ∧
    Ordered laneOf Prod.fst SameOccupancy (laneQueue state waiting) log

section States

variable {state after : SendState} {log : List Sight} {waiting : List Packet}

theorem holds_up_throttled (throttled : Throttled state) {c : ConnId} (live : state.occ c ≠ none)
    (busy : (state.send c).iThrowsendCount > 0) :
    pendingPacket (state.send c) ≠ none ∧ holdsUp (state.send c) = pendingPacket (state.send c) := by
  have pending := (throttled c live).2 busy
  rw [holdsUp, if_pos busy, pendingPacket, if_neg pending]
  exact ⟨nofun, rfl⟩

theorem holds_up_congr {part other : SendPart}
    (count : other.iThrowsendCount = part.iThrowsendCount)
    (pointer : other.psendMemPointer = part.psendMemPointer) : holdsUp other = holdsUp part := by
  rw [holdsUp, holdsUp, pendingPacket, pendingPacket, count, pointer]

/-- The packet that stands in the list where the iterator stands in the queue. -/
theorem waiting_packet (named : Named state) (same : waiting.map Prod.fst = state.queue)
    (waits : waiting.Sublist state.queued) {pos buf : Nat} {msg : MsgBuf}
    (here : Current state pos buf msg) : waiting[pos]? = some (buf, msg) := by
  have current := here.current
  rw [← same, List.getElem?_map] at current
  obtain ⟨packet, found, first⟩ := Option.map_eq_some_iff.mp current
  have member := waits.subset (List.mem_of_getElem? found)
  have queued := named.waiting_queued buf (List.mem_of_getElem? here.current) msg here.content
  have only := List.inj_on_of_nodup_map named.queued_once member queued first
  rw [found, only]

/-- What an occupancy has pending stays as it is; a new one has nothing. The send
thread sends nothing. -/
structure Undisturbed (before after : SendState) : Prop where
  calls : threadCalls after.sends = threadCalls before.sends
  nextOcc : before.nextOcc ≤ after.nextOcc
  owners : ∀ c o, after.occ c = some o →
    before.occ c = some o ∧ (after.send c).iThrowsendCount = (before.send c).iThrowsendCount ∧
        (after.send c).psendMemPointer = (before.send c).psendMemPointer ∨
      before.nextOcc ≤ o ∧ (after.send c).iThrowsendCount = 0

theorem undisturbed_of_same (calls : threadCalls after.sends = threadCalls state.sends)
    (nextOcc : after.nextOcc = state.nextOcc)
    (same : ∀ c o, after.occ c = some o → state.occ c = some o ∧
      (after.send c).iThrowsendCount = (state.send c).iThrowsendCount ∧
        (after.send c).psendMemPointer = (state.send c).psendMemPointer) :
    Undisturbed state after :=
  ⟨calls, nextOcc.ge, fun c o serves => Or.inl (same c o serves)⟩

theorem undisturbed_trans {middle : SendState} (early : Undisturbed state middle)
    (late : Undisturbed middle after) : Undisturbed state after := by
  refine ⟨late.calls.trans early.calls, early.nextOcc.trans late.nextOcc, fun c o serves => ?_⟩
  rcases late.owners c o serves with ⟨served, count, pointer⟩ | ⟨fresh, idle⟩
  · rcases early.owners c o served with ⟨older, sameCount, samePointer⟩ | ⟨fresh, idle⟩
    · exact Or.inl ⟨older, count.trans sameCount, pointer.trans samePointer⟩
    · exact Or.inr ⟨fresh, count.trans idle⟩
  · exact Or.inr ⟨early.nextOcc.trans fresh, idle⟩

def stillRules : Rules where
  mayStart := fun _ _ => False
  mayWrite := fun _ _ progress _ => ∀ sendsize, progress ≠ .done sendsize
  mayUncount := fun state c => state.occ c = none

theorem undisturbed_elsewhere (c : ConnId)
    (calls : threadCalls after.sends = threadCalls state.sends)
    (nextOcc : after.nextOcc = state.nextOcc)
    (occ : after.occ = state.occ ∨ after.occ = Function.update state.occ c none)
    (ended : after.occ c = none) (others : ∀ d ≠ c, after.send d = state.send d) :
    Undisturbed state after := by
  apply undisturbed_of_same calls nextOcc
  intro d o serves
  have other : d ≠ c := by
    rintro rfl
    rw [ended] at serves
    cases serves
  refine ⟨?_, by rw [others d other], by rw [others d other]⟩
  rcases occ with same | updated
  · rw [← same, serves]
  · rwa [updated, Function.update_of_ne other] at serves

theorem thread_calls_write (state : SendState) (c : ConnId) (progress : Progress) (armed : Bool) :
    threadCalls (state.write c progress armed).sends = threadCalls state.sends := by
  rw [write_sends, threadCalls, List.filter_append]
  exact List.append_nil _

theorem undisturbed_move (move : SendMove stillRules state after) : Undisturbed state after := by
  cases move with
  | reset c part unowned =>
      exact undisturbed_elsewhere c rfl rfl (Or.inl rfl) unowned fun d other =>
        Function.update_of_ne other _ _
  | own c unowned idle uncounted =>
      refine ⟨rfl, Nat.le_succ _, fun d o serves => ?_⟩
      have owner : Function.update state.occ c (some state.nextOcc) d = some o := serves
      by_cases same : d = c
      · subst same
        rw [Function.update_self] at owner
        exact Or.inr ⟨(Option.some.inj owner).le, uncounted⟩
      · rw [Function.update_of_ne same] at owner
        exact Or.inl ⟨owner, rfl, rfl⟩
  | release c =>
      exact undisturbed_elsewhere c rfl rfl (Or.inr rfl) (Function.update_self ..) fun d other =>
        Function.update_of_ne other _ _
  | close c =>
      exact undisturbed_elsewhere c rfl rfl (Or.inr rfl) (Function.update_self ..) fun d other =>
        Function.update_of_ne other _ _
  | start pos buf msg progress armed here owner live free fits may => exact may.elim
  | write c progress armed fits dead may =>
      obtain ⟨nextOcc, -, -, -, -⟩ := write_rest state c progress armed
      have calls := thread_calls_write state c progress armed
      by_cases live : state.occ c = none
      · refine undisturbed_elsewhere c calls nextOcc (Or.inl (write_occ ..)) ?_ fun d other => ?_
        · rw [write_occ, live]
        · rw [write_send, Function.update_of_ne other]
      · have unfinished := may live
        apply undisturbed_of_same calls nextOcc
        intro d o serves
        rw [write_occ] at serves
        rw [write_send, Function.update_apply]
        refine ⟨serves, ?_, ?_⟩
        all_goals
          split
          case isTrue same =>
            subst same
            cases progress with
            | done sendsize => exact absurd rfl (unfinished sendsize)
            | _ => rfl
          case isFalse => rfl
  | uncount c dead =>
      exact undisturbed_elsewhere c rfl rfl (Or.inl rfl) dead fun d other =>
        Function.update_of_ne other _ _
  | _ => exact undisturbed_of_same rfl rfl fun _ _ serves => ⟨serves, rfl, rfl⟩

theorem undisturbed_moves (moves : SendMoves stillRules state after) :
    Undisturbed state after := by
  induction moves with
  | refl => exact undisturbed_of_same rfl rfl fun _ _ serves => ⟨serves, rfl, rfl⟩
  | tail _ move ih => exact undisturbed_trans ih (undisturbed_move move)

theorem explained_calm (named : Named state) (explained : Explained state log)
    (undisturbed : Undisturbed state after) (queue : after.queue = state.queue)
    (queued : after.queued = state.queued) (pc : after.pc = state.pc) : Explained after log where
  throttled := by
    intro c live
    obtain ⟨o, serves⟩ := Option.ne_none_iff_exists'.mp live
    rcases undisturbed.owners c o serves with ⟨served, count, pointer⟩ | ⟨-, idle⟩
    · rw [count, pointer]
      exact explained.throttled c (by rw [served]; exact Option.some_ne_none o)
    · rw [idle]
      exact ⟨by decide, fun busy => absurd busy (by decide)⟩
  calls := by
    rw [undisturbed.calls]
    exact explained.calls
  ordered := by
    obtain ⟨waiting, same, ordered⟩ := explained.ordered
    refine ⟨waiting, same.trans queue.symm, ?_⟩
    have kept : laneQueue after waiting =
        { laneQueue state waiting with
          live := (laneQueue after waiting).live
          pending := (laneQueue after waiting).pending } := by
      rw [laneQueue, laneQueue, queued, pc]
    rw [kept]
    apply LaneSweep.ordered_quiet ordered
    intro packet member live
    obtain ⟨o, started, stamped⟩ := named.queued_lt packet member
    have serves : after.occ packet.2.hdr.pConn = some o := live.trans stamped
    rcases undisturbed.owners _ o serves with ⟨served, count, pointer⟩ | ⟨fresh, -⟩
    · exact ⟨served.trans stamped.symm, holds_up_congr count pointer⟩
    · exact absurd started (Nat.not_lt.mpr fresh)

theorem throttled_of_same (throttled : Throttled state) (occ : after.occ = state.occ)
    (send : after.send = state.send) : Throttled after := by
  intro c
  rw [occ, send]
  exact throttled c

theorem calls_append (explained : Explained state log) {seen : Sight}
    (other : startedPackets [seen] = []) :
    List.Forall₂ FirstBytes (threadCalls state.sends) (startedPackets (log ++ [seen])) := by
  have same : startedPackets (log ++ [seen]) = startedPackets log := by
    rw [startedPackets, List.filterMap_append]
    exact (congrArg _ other).trans (List.append_nil _)
  rw [same]
  exact explained.calls

theorem explained_push (named : Named state) (explained : Explained state log)
    (idle : iteratorOf state.pc = none) (msg : MsgBuf) : Explained (state.push msg) log where
  throttled := throttled_of_same explained.throttled rfl rfl
  calls := explained.calls
  ordered := by
    obtain ⟨waiting, same, ordered⟩ := explained.ordered
    refine ⟨waiting ++ [(state.sheap.next, msg)], ?_, ?_⟩
    · rw [List.map_append, same]
      rfl
    · exact LaneSweep.ordered_push ordered idle named.queued_old fun _ _ => id

theorem explained_wake (explained : Explained state log) (interrupted : Bool)
    (waits : state.pc = .semWait) : Explained (state.wake interrupted) log where
  throttled := throttled_of_same explained.throttled rfl rfl
  calls := explained.calls
  ordered := by
    obtain ⟨waiting, same, ordered⟩ := explained.ordered
    have iterator : iteratorOf state.pc = none := by rw [waits]; rfl
    have kept : laneQueue (state.wake interrupted) waiting = laneQueue state waiting := by
      rw [laneQueue, laneQueue, iterator]
      rfl
    exact ⟨waiting, same, kept ▸ ordered⟩

theorem explained_begin_pass (explained : Explained state log) (woken : state.pc = .woken) :
    Explained state.beginPass
      (log ++ (if state.queueCount > 0 then some Seen.passBegins else none).toList) where
  throttled := throttled_of_same explained.throttled rfl rfl
  calls := by
    split
    · exact calls_append explained rfl
    · rw [Option.toList_none, List.append_nil]
      exact explained.calls
  ordered := by
    obtain ⟨waiting, same, ordered⟩ := explained.ordered
    refine ⟨waiting, same, ?_⟩
    by_cases filled : state.queueCount > 0
    · have begun : laneQueue state.beginPass waiting =
          { laneQueue state waiting with iterator := some 0 } := by
        rw [SendState.beginPass, if_pos filled]
        rfl
      rw [begun, if_pos filled]
      exact LaneSweep.ordered_pass_begins ordered
    · have iterator : iteratorOf state.pc = none := by rw [woken]; rfl
      have still : laneQueue state.beginPass waiting = laneQueue state waiting := by
        rw [SendState.beginPass, if_neg filled, laneQueue, laneQueue, iterator]
        rfl
      rw [still, if_neg filled, Option.toList_none, List.append_nil]
      exact ordered

theorem explained_end_pass (explained : Explained state log) :
    Explained { state with pc := .semWait } (log ++ [.passEnds]) where
  throttled := throttled_of_same explained.throttled rfl rfl
  calls := calls_append explained rfl
  ordered := by
    obtain ⟨waiting, same, ordered⟩ := explained.ordered
    exact ⟨waiting, same, LaneSweep.ordered_pass_ends ordered⟩

theorem explained_skip (named : Named state) (explained : Explained state log) {pos buf : Nat}
    {msg : MsgBuf} (here : Current state pos buf msg) (live : state.occ msg.hdr.pConn ≠ none)
    (busy : (state.send msg.hdr.pConn).iThrowsendCount > 0) :
    Explained { state with pc := .pass (pos + 1) }
      (log ++ [.skipped (buf, msg) (pendingPacket (state.send msg.hdr.pConn))]) where
  throttled := throttled_of_same explained.throttled rfl rfl
  calls := calls_append explained rfl
  ordered := by
    obtain ⟨waiting, same, ordered⟩ := explained.ordered
    have iterator : iteratorOf state.pc = some pos := by rw [here.iterator]; rfl
    exact ⟨waiting, same, LaneSweep.ordered_skip ordered iterator
      (waiting_packet named same ordered.waits here)
      fun _ => holds_up_throttled explained.throttled live busy⟩

theorem explained_drop_stale (named : Named state) (explained : Explained state log)
    {pos buf : Nat} {msg : MsgBuf} (here : Current state pos buf msg)
    (stale : state.occ msg.hdr.pConn ≠ msg.hdr.occ) :
    Explained (state.dropStale pos buf) log where
  throttled := throttled_of_same explained.throttled rfl rfl
  calls := explained.calls
  ordered := by
    obtain ⟨waiting, same, ordered⟩ := explained.ordered
    have iterator : iteratorOf state.pc = some pos := by rw [here.iterator]; rfl
    refine ⟨waiting.eraseIdx pos, ?_, LaneSweep.ordered_drop ordered iterator
      (waiting_packet named same ordered.waits here) stale⟩
    rw [← List.eraseIdx_map, same]
    rfl

theorem begin_first_bytes {pos buf : Nat} {msg : MsgBuf} (here : Current state pos buf msg)
    (sendsize : Int) (partlySent : Bool) :
    FirstBytes ((state.begin pos buf msg).sendCall msg.hdr.pConn false partlySent sendsize)
      (buf, msg) := by
  have part : ((state.begin pos buf msg).send msg.hdr.pConn).psendbuf = (buf, lenMsgHeader) := by
    rw [SendState.begin, set_send_self]
  have content : (state.begin pos buf msg).sheap.block buf = some msg := here.content
  have written : ((state.begin pos buf msg).sendCall msg.hdr.pConn false partlySent
      sendsize).written = msg.pkg.take sendsize.toNat := by
    simp only [SendState.sendCall, part, content, Nat.sub_self, List.drop_zero]
  constructor
  · simp only [SendState.sendCall, part, content, Option.map_some]
  · rw [written]
    exact List.take_prefix _ _

/-- A started packet is the only one that may be left to the write handler. -/
theorem throttled_start (throttled : Throttled state) (sound : SendSound state) {pos buf : Nat}
    {msg : MsgBuf} (here : Current state pos buf msg)
    (free : (state.send msg.hdr.pConn).iThrowsendCount ≤ 0) (progress : Progress) (armed : Bool) :
    Throttled (state.start pos buf msg progress armed) := by
  have held : Holds state (.slot pos) buf := here.current
  have notNull := Ownership.held_ne_null sound.exclusive held
  intro c live
  rw [start_occ] at live
  rw [start_send, Function.update_apply]
  split
  · cases progress with
    | part count => exact ⟨Int.add_le_of_le_sub_right free, fun _ => notNull⟩
    | blocked => exact ⟨Int.add_le_of_le_sub_right free, fun _ => notNull⟩
    | done sendsize => exact ⟨Int.one_nonneg, fun busy => absurd busy (lt_irrefl 0)⟩
  · exact throttled c live

theorem explained_start (named : Named state) (sound : SendSound state)
    (explained : Explained state log) {pos buf : Nat} {msg : MsgBuf}
    (here : Current state pos buf msg) (owner : state.occ msg.hdr.pConn = msg.hdr.occ)
    (live : msg.hdr.occ ≠ none) (free : (state.send msg.hdr.pConn).iThrowsendCount ≤ 0)
    (progress : Progress) (armed : Bool) :
    Explained (state.start pos buf msg progress armed) (log ++ [.started (buf, msg)]) where
  throttled := throttled_start explained.throttled sound here free progress armed
  calls := by
    rw [start_sends, threadCalls, List.filter_append, startedPackets, List.filterMap_append]
    refine List.rel_append explained.calls (List.Forall₂.cons ?_ List.Forall₂.nil)
    exact begin_first_bytes here progress.sendsize _
  ordered := by
    obtain ⟨waiting, same, ordered⟩ := explained.ordered
    obtain ⟨-, queued, queue, -, pc⟩ := start_rest state pos buf msg progress armed
    have iterator : iteratorOf state.pc = some pos := by rw [here.iterator]; rfl
    have idle : holdsUp (state.send msg.hdr.pConn) = none := if_neg (not_lt.mpr free)
    have moved : laneQueue (state.start pos buf msg progress armed) (waiting.eraseIdx pos) =
        { laneQueue state waiting with
          waiting := waiting.eraseIdx pos
          pending := Function.update (laneQueue state waiting).pending msg.hdr.pConn
            (holdsUp (startedPart (state.send msg.hdr.pConn) buf msg progress)) } := by
      refine Queue.ext rfl queued (funext fun packet => ?_) (funext fun c => ?_)
        (congrArg iteratorOf pc)
      · exact congrArg (fun occ => occ packet.2.hdr.pConn = packet.2.hdr.occ) (start_occ ..)
      · dsimp only [laneQueue]
        rw [start_send, Function.update_apply, Function.update_apply]
        split <;> rfl
    refine ⟨waiting.eraseIdx pos, ?_, ?_⟩
    · rw [← List.eraseIdx_map, same, queue]
    · rw [moved]
      apply LaneSweep.ordered_start ordered iterator
        (waiting_packet named same ordered.waits here) idle
      intro other member kindred
      obtain ⟨o, stamped⟩ := Option.ne_none_iff_exists'.mp live
      have home := named.queued_home other member msg.hdr.pConn o (owner.trans stamped)
        (Eq.trans kindred stamped)
      have serves : state.occ other.2.hdr.pConn = other.2.hdr.occ := by
        rw [← home]
        exact owner.trans (Eq.symm kindred)
      exact ⟨serves, home.symm⟩

theorem explained_complete (explained : Explained state log) {c : ConnId}
    (live : state.occ c ≠ none) (sendsize : Int) (armed : Bool) :
    Explained (state.write c (.done sendsize) armed)
      (log ++ [.completed c (pendingPacket (state.send c))]) where
  throttled := by
    intro d open_
    have capped := explained.throttled d
    rw [write_occ] at open_
    rw [write_send, Function.update_apply]
    split
    case isTrue same =>
      subst same
      have one := (capped open_).1
      refine ⟨?_, fun busy => ?_⟩
      · dsimp only [writtenPart]
        omega
      · dsimp only [writtenPart] at busy
        omega
    case isFalse => exact capped open_
  calls := by
    rw [thread_calls_write]
    exact calls_append explained rfl
  ordered := by
    obtain ⟨waiting, same, ordered⟩ := explained.ordered
    obtain ⟨-, queued, queue, pc, -⟩ := write_rest state c (.done sendsize) armed
    have one := (explained.throttled c live).1
    have freed : holdsUp (writtenPart (state.send c) (.done sendsize)) = none := by
      apply if_neg
      dsimp only [writtenPart]
      omega
    have moved : laneQueue (state.write c (.done sendsize) armed) waiting =
        { laneQueue state waiting with
          pending := Function.update (laneQueue state waiting).pending c none } := by
      refine Queue.ext rfl queued (funext fun packet => ?_) (funext fun d => ?_)
        (congrArg iteratorOf pc)
      · exact congrArg (fun occ => occ packet.2.hdr.pConn = packet.2.hdr.occ) (write_occ ..)
      · dsimp only [laneQueue]
        rw [write_send, ← freed, Function.update_apply, Function.update_apply]
        split <;> rfl
    refine ⟨waiting, same.trans queue.symm, ?_⟩
    rw [moved]
    apply LaneSweep.ordered_complete ordered
    by_cases busy : (state.send c).iThrowsendCount > 0
    · exact Or.inr (holds_up_throttled explained.throttled live busy).2
    · exact Or.inl (if_neg busy)

end States

section Steps

variable {cfg : Config} {server after : Server} {act : Act} {log : List Sight}

theorem explained_quiet (named : Named (sendState server))
    (explained : Explained (sendState server) log)
    (moves : SendMoves stillRules (sendState server) (sendState after))
    (queue : after.msgSendQueue = server.msgSendQueue)
    (queued : after.ghost.queued = server.ghost.queued) (pc : after.sendPc = server.sendPc) :
    Explained (sendState after) log :=
  explained_calm named explained (undisturbed_moves moves) queue queued pc

theorem queue_reply_explained (named : Named (sendState server))
    (explained : Explained (sendState server) log) (idle : iteratorOf server.sendPc = none)
    (msg : MsgBuf) (now : Int)
    (moves : SendMoves stillRules (sendState server) (sendState (queueReply cfg server msg now))) :
    Explained (sendState (queueReply cfg server msg now)) log := by
  rcases queue_reply_branches cfg server msg now with
    ⟨-, dropped⟩ | ⟨-, -, closed⟩ | ⟨-, -, queued⟩
  · rw [dropped] at moves ⊢
    exact explained_quiet named explained moves rfl rfl rfl
  · rw [closed] at moves ⊢
    have same := counters_zd cfg (discardSendPkg (allocReply server msg) server.sheap.next)
      msg.hdr.pConn now
    exact explained_quiet named explained moves (congrArg Counters.queue same)
      (congrArg Counters.queued same) (congrArg Counters.pc same)
  · rw [queued, push_send_pkg_send_state]
    exact explained_push named explained idle msg

theorem process_message_explained (attributed : Attributed server)
    (named : Named (sendState server)) (explained : Explained (sendState server) log)
    (jobbuf : Nat) (junk : Nat → Byte) (now : Int)
    (unlocked : inPass server = true → processReplies server jobbuf junk = false) :
    Explained (sendState (processMessage cfg server jobbuf junk now)) log := by
  have moves : SendMoves stillRules (sendState server)
      (sendState (processMessage cfg server jobbuf junk now)) :=
    process_message_moves attributed cfg jobbuf junk now
  rcases process_message_sends attributed cfg jobbuf junk now with
    ⟨-, quiet⟩ | ⟨replies, answer, noted, send, counted, -, -, -, same⟩
  · exact explained_quiet named explained moves (quiet_queue quiet)
      (congrArg Counters.queued quiet.kept) (congrArg Counters.pc quiet.kept)
  · have pc : noted.sendPc = server.sendPc := congrArg Counters.pc counted
    have idle : iteratorOf noted.sendPc = none := by
      rw [pc]
      cases iterator : server.sendPc with
      | pass pos =>
          have passing : inPass server = true := by rw [inPass, iterator]
          rw [unlocked passing] at replies
          cases replies
      | _ => rfl
    rw [same] at moves ⊢
    rw [← send] at moves named explained
    exact queue_reply_explained named explained idle answer now moves

theorem send_element_explained (attributed : Attributed server)
    (sound : SendSound (sendState server)) (named : Named (sendState server))
    (explained : Explained (sendState server) log) {pos pMsgBuf : Nat} (outcome : SendOutcome)
    (ctlOk : Bool) (iterator : server.sendPc = .pass pos)
    (current : server.msgSendQueue[pos]? = some pMsgBuf) :
    Explained (sendState (sendElement server pos pMsgBuf outcome ctlOk))
      (log ++ (seenAt server pMsgBuf).toList) := by
  obtain ⟨msg, content⟩ := Option.isSome_iff_exists.mp
    (sound.exclusive.live (.slot pos) pMsgBuf current)
  have stored : server.sheap.block pMsgBuf = some msg := content
  have here : Current (sendState server) pos pMsgBuf msg := ⟨iterator, current, content⟩
  have stamped := attributed.replies msg.hdr ⟨pMsgBuf, msg, stored, rfl⟩
  have owner := stamped_current (settled_stamps attributed.settled) stamped
  unfold sendElement seenAt
  rw [stored]
  dsimp only
  split_ifs with stale busy
  · rw [Option.toList_none, List.append_nil]
    exact explained_drop_stale named explained here fun owns => stale (owner.mpr owns).symm
  · obtain ⟨owns, live⟩ := current_owner attributed.settled stamped (not_not.mp stale)
    exact explained_skip named explained here (ne_of_eq_of_ne owns live) busy
  · obtain ⟨owns, live⟩ := current_owner attributed.settled stamped (not_not.mp stale)
    rw [send_element_now_send_state]
    exact explained_start named sound explained here owns live (not_lt.mp busy) _ _

/-- What is seen behind the read handler is what the write handler completes. -/
theorem write_side_explained (settled : Settled (poolView server)) {c : ConnId}
    (serves : InService (poolView server) c) (named : Named (sendState server))
    (explained : Explained (sendState server) log) {revents : BitVec 32} {send : SendOutcome}
    (ctlOk : Bool) (possible : send.possible (server.conns c).send.isendlen = true)
    (normal : hasFlag revents epollOut = true → server.ghost.occ c ≠ none →
      hasFlag revents (epollErr ||| epollHup ||| epollRdhup) = false ∧ Normal send = true) :
    Explained (sendState (writeSide server c revents send ctlOk))
      (log ++ (if hasFlag revents epollOut = true ∧
          hasFlag revents (epollErr ||| epollHup ||| epollRdhup) = false ∧
          completes server c send = true then
        some (Seen.completed c (pendingPacket (server.conns c).send))
      else none).toList) := by
  split_ifs with finishes
  · obtain ⟨out, plain, whole⟩ := finishes
    obtain ⟨some, all⟩ := of_decide_eq_true whole
    have opened : (server.conns c).fd ≠ -1 := by
      intro shut
      rw [sendsizeOn, if_pos shut] at some
      exact absurd some (by decide)
    have done := progress_of_done (fun part => part.2 all)
      (show sendsizeOn server c send ≠ -1 by omega)
    rw [writeSide, if_pos out, if_neg (by rw [plain]; exact Bool.false_ne_true),
      ngx_write_request_handler_send_state, done]
    exact explained_complete explained (open_in_service settled serves opened) _ _
  · rw [Option.toList_none, List.append_nil]
    have same := counters_write_side server c revents send ctlOk
    refine explained_quiet named explained ?_ (congrArg Counters.queue same)
      (congrArg Counters.queued same) (congrArg Counters.pc same)
    apply write_side_moves settled c serves revents send ctlOk possible
    intro out
    split
    case isTrue hangup =>
      by_contra live
      rw [(normal out live).1] at hangup
      cases hangup
    case isFalse =>
      intro live sendsize done
      obtain ⟨plain, accepted⟩ := normal out live
      have result := (sendsize_on_live settled live send ctlOk).1
      refine finishes ⟨out, plain, decide_eq_true ?_⟩
      rw [result]
      unfold progressOf at done
      split_ifs at done with part blocked
      have sent := (result_normal accepted).resolve_right blocked
      exact ⟨sent, not_not.mp fun other => part ⟨sent, other⟩⟩

theorem explained_step (attributed : Attributed server) (sound : SendSound (sendState server))
    (named : Named (sendState server)) (explained : Explained (sendState server) log)
    (orderly : Orderly cfg server act) (taken : step cfg server act = some after) :
    Explained (sendState after) (log ++ (observe cfg server act).toList) := by
  have settled := attributed.settled
  have quietly : observe cfg server act = none → LeavesQueue act → Permits stillRules cfg server act →
      Explained (sendState after) (log ++ (observe cfg server act).toList) := by
    intro silent leaves permits
    have quiet := quiet_step attributed leaves taken
    rw [silent, Option.toList_none, List.append_nil]
    exact explained_quiet named explained (send_moves_of_step attributed orderly.1 permits taken)
      (quiet_queue quiet) (congrArg Counters.queued quiet.kept) (congrArg Counters.pc quiet.kept)
  have nothing : log ++ (none : Option Sight).toList = log := List.append_nil log
  cases stepped_of_step taken with
  | event c revents recv send ctlOk junk nowMs now handler reported recvPossible sendPossible =>
      have disciplined : InService (poolView server) c := orderly.1
      have moves : SendMoves stillRules (sendState server) _ :=
        read_side_moves settled cfg c revents recv junk nowMs now
      have same := counters_read_side cfg server c revents recv junk nowMs now
      obtain ⟨still, serves⟩ := read_side_settled settled cfg c disciplined revents recv junk nowMs
        now
      refine write_side_explained still serves ?_ ?_ ctlOk ?_ orderly.2
      · exact (moves_preserve (fun _ _ => named_move) sound named moves).2
      · exact explained_quiet named explained moves (congrArg Counters.queue same)
          (congrArg Counters.queued same) (congrArg Counters.pc same)
      · rw [read_side_isendlen]
        exact sendPossible
  | msgSend msg now unlocked =>
      obtain ⟨stamped, sized⟩ := orderly
      have idle : iteratorOf server.sendPc = none := by
        cases iterator : server.sendPc with
        | pass pos => rw [inPass, iterator] at unlocked; cases unlocked
        | _ => rfl
      have queued := queue_reply_explained named explained idle msg now
        (queue_reply_moves settled cfg msg now stamped.1 sized)
      exact nothing.symm ▸ queued
  | process worker jobbuf junk now holds unlocked =>
      have processed : Explained (sendState (processMessage cfg server jobbuf junk now)) log :=
        process_message_explained attributed named explained jobbuf junk now unlocked
      exact nothing.symm ▸ processed
  | semWait interrupted waits wakes =>
      have woken := explained_wake explained interrupted waits
      exact nothing.symm ▸ woken
  | beginPass woken => exact explained_begin_pass explained woken
  | endPass pos iterator finished => exact explained_end_pass explained
  | element outcome ctlOk pos pMsgBuf iterator current possible =>
      have here : elementAt server = some (pos, pMsgBuf) := by
        rw [elementAt, iterator]
        dsimp only
        rw [current]
        rfl
      rw [observe, here]
      exact send_element_explained attributed sound named explained outcome ctlOk iterator current
  | _ => exact quietly rfl (by trivial) (by trivial)

end Steps

theorem fresh_explained {server : Server} (fresh : Fresh server) :
    Explained (sendState server) [] := by
  obtain ⟨listenFds, -, -, rfl⟩ := fresh
  refine ⟨fun c live => absurd rfl live, List.Forall₂.nil, [], rfl, ?_⟩
  exact
    { sorted := List.Pairwise.nil
      waits := List.Sublist.refl []
      known := nofun
      present := nofun
      passed := nofun
      caused := nofun }

theorem reachable_explained {cfg : Config} {trace : Trace} (reached : TraceReachable cfg trace) :
    Explained (sendState trace.server) trace.log := by
  have holds : Attributed trace.server ∧ SendSound (sendState trace.server) ∧
      Named (sendState trace.server) ∧ Explained (sendState trace.server) trace.log := by
    refine TransitionSystem.invariant_of_step (fun trace : Trace => Attributed trace.server ∧
      SendSound (sendState trace.server) ∧ Named (sendState trace.server) ∧
        Explained (sendState trace.server) trace.log) ?_ ?_ reached
    · rintro ⟨server, log⟩ ⟨fresh, begins⟩
      cases begins
      exact ⟨fresh_attributed fresh, fresh_sound fresh, (fresh_delivering server fresh).named,
        fresh_explained fresh⟩
    · rintro before act traced ⟨attributed, sound, named, explained⟩ orderly taken
      obtain ⟨after, stepped, rfl⟩ := Option.map_eq_some_iff.mp taken
      have sized : ∀ msg now, act = .msgSend msg now → Sized msg := by
        rintro msg now rfl
        exact orderly.2
      have moves : SendMoves anyRules (sendState before.server) (sendState after) :=
        send_moves_of_step attributed orderly.1 (any_permits sized) stepped
      obtain ⟨later, still⟩ := moves_preserve (fun _ _ => named_move) sound named moves
      exact ⟨attributed_step attributed orderly.1 stepped, later, still,
        explained_step attributed sound named explained orderly stepped⟩
  exact holds.2.2.2

/-- How the packets of one occupancy come to be started, in the order of `msgSend` or
in another. -/
structure StartOrder (trace : Trace) : Prop where
  /-- the packets seen to be started are those that the send thread hands to `send` from
  their first byte -/
  calls : List.Forall₂ FirstBytes (threadCalls trace.server.ghost.sends)
    (startedPackets trace.log)
  /-- the pass that starts a packet before an older one skipped the older one because a
  packet was pending, and the write handler completed that packet in between -/
  overtaken : ∀ older packet : Packet, [older, packet].Sublist trace.server.ghost.queued →
    SameOccupancy older packet → ∀ before rest, trace.log = before ++ .started packet :: rest →
      .started older ∉ before → Overtakable before older packet.2.hdr.pConn
  /-- no packet of the connection is completed in a pass: the packets are started in
  the order of `msgSend` -/
  inOrder : ∀ older packet : Packet, [older, packet].Sublist trace.server.ghost.queued →
    SameOccupancy older packet → ¬ CompletedInPass trace.log packet.2.hdr.pConn →
      ∀ before rest, trace.log = before ++ .started packet :: rest → .started older ∈ before

/-- In every orderly run a packet is started before an older one of its occupancy only in
a pass in which the write handler completed what the older one was skipped for. -/
theorem start_order_explained (cfg : Config) (trace : Trace)
    (reached : TraceReachable cfg trace) : StartOrder trace := by
  obtain ⟨-, calls, waiting, -, ordered⟩ := reachable_explained reached
  exact
    { calls := calls
      overtaken := fun older packet order same before rest log late =>
        LaneSweep.overtaken ordered order same log late
      inOrder := fun older packet order same never before rest log =>
        LaneSweep.in_order ordered order same never log }

def firstClientReply (msgCode : Nat) : MsgBuf where
  hdr := { pConn := 1, iCurrsequence := 1, occ := some 0 }
  pkg := encodeHeader 8 msgCode 0

/-- Three replies of which the third is started while the second still waits. -/
theorem start_order_explained_sample :
    ∃ trace,
      trace.server.ghost.queued =
        [(1, firstClientReply 1), (2, firstClientReply 2), (3, firstClientReply 3)] ∧
      trace.log =
        [.passBegins, .started (1, firstClientReply 1), .skipped (2, firstClientReply 2) (some 1),
          .completed 1 (some 1), .started (3, firstClientReply 3)] ∧
      StartOrder trace := by
  have seen : (TransitionSystem.exec (traceStep sampleConfig)
      (fun trace act => decide (Orderly sampleConfig trace.server act)) ⟨Server.construct [3], []⟩
      [.epollInit (fun _ => true) 1000, .accept 0 [.ok 5] true true 1001,
        .msgSend (firstClientReply 1) 1002, .msgSend (firstClientReply 2) 1003,
        .msgSend (firstClientReply 3) 1004, .semWait false, .beginPass, .element (.sent 3) true,
        .element .eagain true, .event 1 epollOut .again (.sent 5) true (fun _ => 0) 0 1005,
        .element (.sent 8) true]).map (fun trace => (trace.server.ghost.queued, trace.log)) =
      some ([(1, firstClientReply 1), (2, firstClientReply 2), (3, firstClientReply 3)],
        [.passBegins, .started (1, firstClientReply 1), .skipped (2, firstClientReply 2) (some 1),
          .completed 1 (some 1), .started (3, firstClientReply 3)]) := by
    decide
  obtain ⟨trace, executed, same⟩ := Option.map_eq_some_iff.mp seen
  obtain ⟨queued, log⟩ := Prod.mk.inj same
  have reached : TraceReachable sampleConfig trace :=
    ⟨⟨Server.construct [3], []⟩, ⟨⟨[3], by simp, by simp, rfl⟩, rfl⟩,
      TransitionSystem.steps_of_exec (fun _ _ => of_decide_eq_true) executed⟩
  exact ⟨trace, queued, log, start_order_explained sampleConfig trace reached⟩

end NgxServer.SendOrder
