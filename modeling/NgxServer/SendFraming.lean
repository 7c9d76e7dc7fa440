import NgxServer.SendRefinement

/-!
# The sending state of a connection

While a connection is open, `iThrowsendCount` is one exactly while a packet is
pending, and packets are sent one after another. This rests on what reaches
the `EPOLLOUT` branch of the event loop: an event for an open connection that
carries `EPOLLOUT` together with an error or hang-up bit, or while no packet
is pending, breaks it.
-/

namespace NgxServer.SendFraming

open NgxServer.Comm NgxServer.State NgxServer.Socket NgxServer.Request NgxServer.Accept
open NgxServer.System NgxServer.PoolRefinement NgxServer.Occupancy NgxServer.SendMachine
open NgxServer.SendRefinement
open BlockHeap (null)

set_option autoImplicit false

/-- The last `isendlen` bytes of the live message at `psendMemPointer` are
unsent, and there is at least one. -/
def PendingPacket (server : Server) (c : ConnId) : Prop :=
  (server.conns c).send.psendMemPointer ≠ null ∧ sendsFromLive server c = true

structure SendStateOk (server : Server) : Prop where
  zero_or_one : ∀ c, server.ghost.occ c ≠ none →
    (server.conns c).send.iThrowsendCount = 0 ∨ (server.conns c).send.iThrowsendCount = 1
  one_iff_pending : ∀ c, server.ghost.occ c ≠ none →
    ((server.conns c).send.iThrowsendCount = 1 ↔ PendingPacket server c)
  /-- without a pending packet there is nothing at `psendMemPointer` -/
  pending_or_null : ∀ c, server.ghost.occ c ≠ none →
    PendingPacket server c ∨ (server.conns c).send.psendMemPointer = null
  /-- on a closed descriptor the handler sends nothing -/
  handler_sends_pending : ∀ call ∈ server.ghost.sends, call.byWriteHandler = true →
    call.whole = true ∨ call.occ = none ∧ call.sendsize = -2
  starts_idle : ∀ call ∈ server.ghost.sends, call.byWriteHandler = false →
    call.partlySent = false

/-- What the runs of the process are like: nothing is assumed of the events
but what epoll promises. -/
def AnyEvent (server : Server) (act : Act) : Prop :=
  Disciplined server act ∧
    match act with
    | .msgSend msg _ => Sized msg
    | _ => True

/-- No event with `EPOLLOUT` reaches the `EPOLLOUT` branch for a connection
that is still open there if it carries an error or hang-up bit too, or if no
packet is pending. -/
def WritableOk (cfg : Config) (server : Server) : Act → Prop
  | .event c revents recv _ _ junk nowMs now =>
      let served := readSide cfg server c revents recv junk nowMs now
      hasFlag revents epollOut = true → served.ghost.occ c ≠ none →
        hasFlag revents (epollErr ||| epollHup ||| epollRdhup) = false ∧
          (served.conns c).send.psendMemPointer ≠ null
  | _ => True

instance (server : Server) : DecidablePred (AnyEvent server) :=
  decidableWith server (fun _ _ => inferInstanceAs (Decidable (Sized _)))
    (fun _ _ _ _ _ _ _ _ => isTrue trivial) (fun _ _ => isTrue trivial)
    fun act inner => by cases act <;> first | exact trivial | exact inner.elim

instance (cfg : Config) (server : Server) : (act : Act) → Decidable (WritableOk cfg server act)
  | .event c revents recv _ _ junk nowMs now =>
      inferInstanceAs (Decidable (
        let served := readSide cfg server c revents recv junk nowMs now
        hasFlag revents epollOut = true → served.ghost.occ c ≠ none →
          hasFlag revents (epollErr ||| epollHup ||| epollRdhup) = false ∧
            (served.conns c).send.psendMemPointer ≠ null))
  | .epollInit _ _ | .accept _ _ _ _ _ | .msgSend _ _ | .semWait _ | .beginPass | .element _ _
  | .endPass | .take _ | .process _ _ _ | .release _ | .monitorPop _ | .monitorCheck _
  | .recycle _ | .close _ _ => isTrue trivial

def framingRules : Rules where
  mayStart := fun _ _ => True
  mayWrite := fun state c _ _ => (state.send c).psendMemPointer ≠ null
  mayUncount := fun state c => state.occ c = none

structure Framed (state : SendState) : Prop where
  steady : ∀ c, state.occ c ≠ none →
    (state.send c).iThrowsendCount = 0 ∧ (state.send c).psendMemPointer = null ∨
      (state.send c).iThrowsendCount = 1 ∧ (state.send c).psendMemPointer ≠ null
  handler : ∀ call ∈ state.sends, call.byWriteHandler = true →
    call.whole = true ∨ call.occ = none ∧ call.sendsize = -2
  starts : ∀ call ∈ state.sends, call.byWriteHandler = false → call.partlySent = false

section Moves

variable {state after : SendState}

theorem framed_of_quiet (framed : Framed state) (sends : after.sends = state.sends)
    (quiet : ∀ c, after.occ c ≠ none → state.occ c ≠ none ∧ after.send c = state.send c) :
    Framed after where
  steady := by
    intro c live
    obtain ⟨before, same⟩ := quiet c live
    rw [same]
    exact framed.steady c before
  handler := by
    rw [sends]
    exact framed.handler
  starts := by
    rw [sends]
    exact framed.starts

theorem framed_own {c : ConnId} (framed : Framed state)
    (idle : (state.send c).psendMemPointer = null)
    (uncounted : (state.send c).iThrowsendCount = 0) : Framed (state.own c) where
  steady := by
    intro d live
    by_cases same : d = c
    · rw [same]
      exact Or.inl ⟨uncounted, idle⟩
    · simp only [SendState.own, Function.update_of_ne same] at live
      exact framed.steady d live
  handler := framed.handler
  starts := framed.starts

theorem framed_start {pos buf : Nat} {msg : MsgBuf} {progress : Progress} (framed : Framed state)
    (sound : SendSound state) (here : Current state pos buf msg) (armed : Bool)
    (live : state.occ msg.hdr.pConn ≠ none)
    (free : (state.send msg.hdr.pConn).iThrowsendCount ≤ 0) :
    Framed (state.start pos buf msg progress armed) := by
  have held : Holds state (.slot pos) buf := here.current
  have notNull := Ownership.held_ne_null sound.exclusive held
  have idle : (state.send msg.hdr.pConn).iThrowsendCount = 0 ∧
      (state.send msg.hdr.pConn).psendMemPointer = null := by
    rcases framed.steady _ live with zero | ⟨one, -⟩
    · exact zero
    · omega
  refine ⟨?_, ?_, ?_⟩
  · intro d serves
    rw [start_occ] at serves
    rw [start_send]
    by_cases same : d = msg.hdr.pConn
    · rw [same, Function.update_self]
      cases progress with
      | part count => exact Or.inr ⟨by simp [startedPart, idle.1], notNull⟩
      | blocked => exact Or.inr ⟨by simp [startedPart, idle.1], notNull⟩
      | done sendsize => exact Or.inl ⟨rfl, rfl⟩
    · rw [Function.update_of_ne same]
      exact framed.steady d serves
  · rw [start_sends]
    intro call member byHandler
    rcases List.mem_append.mp member with older | new
    · exact framed.handler call older byHandler
    · rw [List.mem_singleton.mp new] at byHandler
      cases byHandler
  · rw [start_sends]
    intro call member byThread
    rcases List.mem_append.mp member with older | new
    · exact framed.starts call older byThread
    · rw [List.mem_singleton.mp new]
      exact decide_eq_false (not_not.mpr idle.2)

theorem framed_write {c : ConnId} {progress : Progress} (framed : Framed state)
    (sound : SendSound state) (armed : Bool)
    (dead : state.occ c = none → progress = .done (-2))
    (may : state.occ c ≠ none → (state.send c).psendMemPointer ≠ null) :
    Framed (state.write c progress armed) := by
  refine ⟨?_, ?_, ?_⟩
  · intro d serves
    rw [write_occ] at serves
    rw [write_send]
    by_cases same : d = c
    · subst same
      have one : (state.send d).iThrowsendCount = 1 := by
        rcases framed.steady d serves with ⟨-, null⟩ | ⟨one, -⟩
        · exact absurd null (may serves)
        · exact one
      rw [Function.update_self]
      cases progress with
      | part count => exact Or.inr ⟨one, may serves⟩
      | blocked => exact Or.inr ⟨one, may serves⟩
      | done sendsize => exact Or.inl ⟨by simp [writtenPart, one], rfl⟩
    · rw [Function.update_of_ne same]
      exact framed.steady d serves
  · rw [write_sends]
    intro call member byHandler
    rcases List.mem_append.mp member with older | new
    · exact framed.handler call older byHandler
    · rw [List.mem_singleton.mp new]
      by_cases live : state.occ c = none
      · rw [dead live]
        exact Or.inr ⟨live, rfl⟩
      · exact Or.inl (sound.whole c (may live))
  · rw [write_sends]
    intro call member byThread
    rcases List.mem_append.mp member with older | new
    · exact framed.starts call older byThread
    · rw [List.mem_singleton.mp new] at byThread
      cases byThread

theorem framed_move (sound : SendSound state) (framed : Framed state)
    (move : SendMove framingRules state after) : Framed after := by
  cases move with
  | reset c part unowned =>
      refine framed_of_quiet framed rfl fun d live => ?_
      have other : d ≠ c := by
        rintro rfl
        exact live unowned
      exact ⟨live, Function.update_of_ne other _ _⟩
  | own c unowned idle uncounted => exact framed_own framed idle uncounted
  | arm c mask armed => exact framed_of_quiet framed rfl fun _ live => ⟨live, rfl⟩
  | release c =>
      refine framed_of_quiet framed rfl fun d live => ?_
      obtain ⟨other, before⟩ := live_elsewhere live
      exact ⟨before, by rw [SendState.release, SendState.dropPending, set_send_ne _ _ other]⟩
  | close c opened =>
      refine framed_of_quiet framed rfl fun d live => ?_
      obtain ⟨other, before⟩ := live_elsewhere live
      exact ⟨before, set_send_ne _ _ other⟩
  | discard msg | push msg | wake interrupted | beginPass | endPass pos | skip pos buf msg
  | dropStale pos buf msg => exact framed_of_quiet framed rfl fun _ live => ⟨live, rfl⟩
  | start pos buf msg progress armed here owner live free =>
      exact framed_start framed sound here armed (by rwa [owner]) free
  | write c progress armed fits dead may => exact framed_write framed sound armed dead may
  | uncount c may =>
      refine framed_of_quiet framed rfl fun d live => ?_
      have other : d ≠ c := by
        rintro rfl
        exact live may
      exact ⟨live, set_send_ne _ _ other⟩

end Moves

theorem send_state_ok {server : Server} (sound : SendSound (sendState server))
    (framed : Framed (sendState server)) : SendStateOk server := by
  have whole : ∀ c, (server.conns c).send.psendMemPointer ≠ null → PendingPacket server c :=
    fun c pending => ⟨pending, sound.whole c pending⟩
  have steady : ∀ c, server.ghost.occ c ≠ none →
      (server.conns c).send.iThrowsendCount = 0 ∧ (server.conns c).send.psendMemPointer = null ∨
        (server.conns c).send.iThrowsendCount = 1 ∧ PendingPacket server c :=
    fun c live => (framed.steady c live).imp_right fun both => ⟨both.1, whole c both.2⟩
  refine ⟨?_, ?_, ?_, framed.handler, framed.starts⟩
  · exact fun c live => (steady c live).imp And.left And.left
  · intro c live
    rcases steady c live with ⟨zero, idle⟩ | ⟨one, pending⟩
    · rw [zero]
      exact ⟨fun absurdly => by omega, fun pending => absurd idle pending.1⟩
    · exact ⟨fun _ => pending, fun _ => one⟩
  · intro c live
    rcases steady c live with ⟨-, idle⟩ | ⟨-, pending⟩
    · exact Or.inr idle
    · exact Or.inl pending

theorem fresh_framed {server : Server} (fresh : Fresh server) : Framed (sendState server) := by
  obtain ⟨listenFds, -, -, rfl⟩ := fresh
  exact ⟨fun c live => absurd rfl live, nofun, nofun⟩

theorem framing_permits {cfg : Config} {server : Server} {act : Act}
    (any : AnyEvent server act) (writable : WritableOk cfg server act) :
    Permits framingRules cfg server act := by
  cases act with
  | event c revents recv send ctlOk junk nowMs now =>
      intro out
      have whenLive := writable out
      split
      case isTrue hangup =>
        by_contra live
        rw [(whenLive live).1] at hangup
        cases hangup
      case isFalse => exact fun live => (whenLive live).2
  | msgSend msg now => exact any.2
  | element outcome ctlOk => exact fun _ => trivial
  | _ => trivial

/-- The two branches that break the sending state of an open connection. -/
theorem write_side_breaks {server : Server} {c : ConnId} {revents : BitVec 32}
    (framed : Framed (sendState server)) (sound : SendSound (sendState server))
    (live : server.ghost.occ c ≠ none) (out : hasFlag revents epollOut = true)
    (wrong : ¬(hasFlag revents (epollErr ||| epollHup ||| epollRdhup) = false ∧
      (server.conns c).send.psendMemPointer ≠ null)) (send : SendOutcome) (ctlOk : Bool) :
    ¬ SendStateOk (writeSide server c revents send ctlOk) := by
  intro ok
  unfold writeSide at ok
  rw [if_pos out] at ok
  split at ok
  · have counts := ok.zero_or_one c live
    have pending := ok.one_iff_pending c live
    rw [mod_conn_conns_self] at counts pending
    have same : PendingPacket (server.modConn c fun p =>
        { p with send.iThrowsendCount := p.send.iThrowsendCount - 1 }) c ↔
        PendingPacket server c := by
      simp [PendingPacket, sendsFromLive, Server.modConn]
    rw [same] at pending
    rcases framed.steady c live with ⟨zero, -⟩ | ⟨one, notNull⟩
    · have before : (server.conns c).send.iThrowsendCount = 0 := zero
      dsimp only at counts
      omega
    · have before : (server.conns c).send.iThrowsendCount = 1 := one
      have again := pending.mpr ⟨notNull, sound.whole c notNull⟩
      dsimp only at again
      omega
  case isFalse plain =>
    have idle : (server.conns c).send.psendMemPointer = null := by
      by_contra pending
      exact wrong ⟨by simpa using plain, pending⟩
    have logged := congrArg SendState.sends
      (ngx_write_request_handler_send_state server c send ctlOk)
    rw [write_sends] at logged
    have called := ok.handler_sends_pending _
      (List.mem_of_mem_getLast? (by
        rw [show (ngxWriteRequestHandler server c send ctlOk).ghost.sends = _ from logged]
        exact List.getLast?_concat)) rfl
    rcases called with whole | ⟨dead, -⟩
    · obtain ⟨msg, -, notNull, -⟩ := whole_part_iff.mp whole
      exact notNull idle
    · exact live dead

theorem reachable_framed {cfg : Config} {server : Server}
    (reached : Reachable cfg (fun server act => AnyEvent server act ∧ WritableOk cfg server act)
      server) :
    Attributed server ∧ SendSound (sendState server) ∧ Framed (sendState server) :=
  reachable_send_state (fun _ => fresh_framed) (fun _ _ => framed_move)
    (fun _ _ permitted => permitted.1.1)
    (fun _ _ permitted => framing_permits permitted.1 permitted.2) reached

/-- A run keeps the sending state of open connections, and the packets whole
and one after another, as long as every event meets `WritableOk`; the first
one that does not breaks it. -/
theorem send_state_of_writable (cfg : Config) (server : Server)
    (reached : Reachable cfg (fun server act => AnyEvent server act ∧ WritableOk cfg server act)
      server) :
    SendStateOk server ∧
      ∀ act after, AnyEvent server act → step cfg server act = some after →
        (SendStateOk after ↔ WritableOk cfg server act) := by
  obtain ⟨attributed, sound, framed⟩ := reachable_framed reached
  refine ⟨send_state_ok sound framed, ?_⟩
  intro act after any taken
  constructor
  · intro ok
    cases stepped_of_step taken with
    | event c revents recv send ctlOk junk nowMs now =>
        intro out live
        by_contra wrong
        have moves : SendMoves framingRules (sendState server)
            (sendState (readSide cfg server c revents recv junk nowMs now)) :=
          read_side_moves attributed.settled cfg c revents recv junk nowMs now
        obtain ⟨stillSound, stillFramed⟩ :=
          moves_preserve (fun _ _ => framed_move) sound framed moves
        exact write_side_breaks stillFramed stillSound live out wrong send ctlOk ok
    | _ => trivial
  · intro writable
    have single : TransitionSystem.Steps (step cfg)
        (fun server act => AnyEvent server act ∧ WritableOk cfg server act) server after :=
      TransitionSystem.steps_single ⟨any, writable⟩ taken
    obtain ⟨-, stillSound, stillFramed⟩ :=
      reachable_framed (TransitionSystem.reachable_steps reached single)
    exact send_state_ok stillSound stillFramed

def firstPart : List Act :=
  [.epollInit (fun _ => true) 1000, .accept 0 [.ok 5] true true 1001,
    .msgSend
      { hdr := { pConn := 1, iCurrsequence := 1, occ := some 0 }, pkg := encodeHeader 8 0 0 } 1002,
    .semWait false, .beginPass, .element (.sent 3) true]

/-- The rest is sent when the socket is writable. -/
theorem send_state_of_writable_sample :
    ∃ server, (server.ghost.occ 1, (server.conns 1).send.iThrowsendCount,
        server.ghost.sends.map SendCall.sendsize) = (some 0, 0, [3, 5]) ∧ SendStateOk server := by
  have seen : (run sampleConfig
      (fun server act => AnyEvent server act ∧ WritableOk sampleConfig server act)
      (firstPart ++ [.event 1 epollOut .again (.sent 5) true (fun _ => 0) 0 1003])).map
      (fun server => (server.ghost.occ 1, (server.conns 1).send.iThrowsendCount,
        server.ghost.sends.map SendCall.sendsize)) = some (some 0, 0, [3, 5]) := by
    decide
  obtain ⟨server, reached, same⟩ := reachable_of_seen seen
  exact ⟨server, same, (send_state_of_writable sampleConfig server reached).1⟩

/-- The client shuts down its sending side while the rest of the packet waits
for the socket, with a byte still to be received: the hang-up branch takes the
packet's count and leaves the packet. -/
theorem send_state_broken :
    ¬ ∀ cfg server, Reachable cfg AnyEvent server → SendStateOk server := by
  intro always
  have seen : (run sampleConfig AnyEvent
      (firstPart ++ [.event 1 (epollIn ||| epollOut ||| epollRdhup) (.data [0]) .eagain true
        (fun _ => 0) 0 1003])).map
      (fun server => (server.ghost.occ 1, (server.conns 1).send.iThrowsendCount,
        (server.conns 1).send.psendMemPointer, sendsFromLive server 1)) =
      some (some 0, 0, 1, true) := by
    decide
  obtain ⟨server, reached, same⟩ := reachable_of_seen seen
  simp only [Prod.mk.injEq] at same
  obtain ⟨live, count, pointer, whole⟩ := same
  have ok := always sampleConfig server reached
  have one := (ok.one_iff_pending 1 (by simp [live])).mpr ⟨by simp [pointer, null], whole⟩
  rw [count] at one
  cases one

end NgxServer.SendFraming
