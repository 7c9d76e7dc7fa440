import NgxServer.Occupancy

/-!
# What a step does to clients and their timers

Most actions move bytes: of the connection pool, the timer queue and the times
that a connection records they change nothing, except that a ping may be noted
first and that a connection may be closed at the end. `Works` says this once
for all of them, so that invariants of the pool and of the timers only look at
accepting, at the monitor and at the recycler.
-/

namespace NgxServer.Session

open NgxServer.Comm NgxServer.State NgxServer.ConnPool NgxServer.TimerQueue NgxServer.Socket
open NgxServer.Request NgxServer.Accept NgxServer.Logic NgxServer.System NgxServer.Frames
open NgxServer.PoolRefinement NgxServer.Occupancy
open QuarantinePool (Pool InService)

set_option autoImplicit false

/-- The pool, the timer queue with what the monitor has taken from it, and the
times of each connection. -/
@[ext]
structure View where
  pool : Pool
  timerQueuemap : List (Int × Nat)
  curSize : Nat
  timerValue : Int
  lsIdleList : List Nat
  monitorTime : Int
  theap : BlockHeap.Heap MsgHeader
  inRecyTime : ConnId → Int
  lastPingTime : ConnId → Int

def session (server : Server) : View where
  pool := poolView server
  timerQueuemap := server.timerQueuemap
  curSize := server.curSize
  timerValue := server.timerValue
  lsIdleList := server.lsIdleList
  monitorTime := server.monitorTime
  theap := server.theap
  inRecyTime := fun c => (server.conns c).inRecyTime
  lastPingTime := fun c => (server.conns c).lastPingTime

theorem session_of_recv {before after : Server} (same : forgetRecv after = forgetRecv before) :
    session after = session before := by
  have forgotten := congrArg session same
  exact forgotten

theorem session_of_send {before after : Server} (same : forgetSend after = forgetSend before) :
    session after = session before := by
  have forgotten := congrArg session same
  exact forgotten

def notePing (server : Server) (c : ConnId) (now : Int) : Server :=
  server.modConn c fun p => { p with lastPingTime := now }

def Marks (now : Int) (before after : Server) : Prop :=
  session after = session before ∨
    ∃ c, before.ghost.occ c ≠ none ∧ session after = session (notePing before c now)

def Ends (cfg : Config) (now : Int) (before after : Server) : Prop :=
  session after = session before ∨
    ∃ c middle, InService (poolView before) c ∧ session middle = session before ∧
      session after = session (zdClosesocketProc cfg middle c now)

/-- What the actions do that move bytes. -/
def Works (cfg : Config) (now : Int) (before after : Server) : Prop :=
  ∃ marked, Marks now before marked ∧ Ends cfg now marked after

/-- The actions other than the set-up, accepting, the monitor's and the
recycler's. -/
def MovesBytes : Act → Prop
  | .epollInit _ _ | .accept _ _ _ _ _ | .monitorPop _ | .monitorCheck _ | .recycle _ => False
  | _ => True

def actTime : Act → Option Int
  | .epollInit _ now | .accept _ _ _ _ now | .event _ _ _ _ _ _ _ now | .msgSend _ now
  | .process _ _ now | .monitorPop now | .monitorCheck now | .recycle now | .close _ now =>
      some now
  | .semWait _ | .beginPass | .element _ _ | .endPass | .take _ | .release _ => none

section Works

variable {cfg : Config} {now : Int} {before after : Server}

theorem works_quiet (same : session after = session before) : Works cfg now before after :=
  ⟨before, Or.inl rfl, Or.inl same⟩

theorem works_ends (ends : Ends cfg now before after) : Works cfg now before after :=
  ⟨before, Or.inl rfl, ends⟩

theorem ends_of_frame {middle : Server} {c : ConnId} (serves : InService (poolView before) c)
    (same : session middle = session before)
    (cases : after = middle ∨ after = zdClosesocketProc cfg middle c now) :
    Ends cfg now before after := by
  rcases cases with kept | closed
  · exact Or.inl (kept ▸ same)
  · exact Or.inr ⟨c, middle, serves, same, congrArg session closed⟩

theorem ends_then_quiet {later : Server} (ends : Ends cfg now before after)
    (same : session later = session after) : Ends cfg now before later := by
  rcases ends with quiet | ⟨c, middle, serves, early, closed⟩
  · exact Or.inl (same.trans quiet)
  · exact Or.inr ⟨c, middle, serves, early, same.trans closed⟩

theorem ends_event (c : ConnId) (serves : InService (poolView before) c) (revents : BitVec 32)
    (recv : RecvOutcome) (send : SendOutcome) (ctlOk : Bool) (junk : Nat → Byte) (nowMs : Nat) :
    Ends cfg now before
      (writeSide (readSide cfg before c revents recv junk nowMs now) c revents send ctlOk) := by
  refine ends_then_quiet ?_ (session_of_send (forget_send_write_side _ c revents send ctlOk))
  unfold readSide
  split
  · obtain ⟨received, same, ends⟩ :=
      ngx_read_request_handler_frame cfg before c recv junk nowMs now
    exact ends_of_frame serves (session_of_recv same) ends
  · exact Or.inl rfl

theorem ends_queue_reply (msg : MsgBuf)
    (serves : 400 < (before.conns msg.hdr.pConn).security.iSendCount →
      InService (poolView before) msg.hdr.pConn) :
    Ends cfg now before (queueReply cfg before msg now) := by
  obtain ⟨sent, same, ends⟩ := queue_reply_frame cfg before msg now
  rcases ends with kept | ⟨flooded, closed⟩
  · exact Or.inl (kept ▸ session_of_send same)
  · exact ends_of_frame (serves flooded) (session_of_send same) (Or.inr closed)

theorem works_process_message (attributed : Attributed before) (jobbuf : Nat)
    (junk : Nat → Byte) : Works cfg now before (processMessage cfg before jobbuf junk now) := by
  rcases process_message_cases cfg before jobbuf junk now with
    same | ⟨msg, dispatched, live, current, logged, ends⟩
  · exact works_quiet (congrArg session same)
  · have stamped := attributed.requests msg.hdr ⟨jobbuf, msg, live, rfl⟩
    obtain ⟨owner, occ⟩ := current_owner attributed.settled stamped current
    have connected : before.ghost.occ msg.hdr.pConn ≠ none := owner ▸ occ
    have quiet : session dispatched = session before := by rw [logged]; rfl
    rcases ends with silent | ⟨answer, noted, header, -, notes, replies⟩
    · exact works_quiet ((congrArg session silent).trans quiet)
    · have marks : Marks now before noted := by
        rcases notes with same | same
        · exact Or.inl ((congrArg session same).trans quiet)
        · refine Or.inr ⟨msg.hdr.pConn, connected, ?_⟩
          rw [same, logged]
          rfl
      have view : poolView noted = poolView before := by
        rcases notes with same | same
        · rw [same, logged]
          rfl
        · rw [same, pool_view_mod_conn dispatched _ _ rfl rfl, logged]
          rfl
      refine ⟨noted, marks, ?_⟩
      rw [replies]
      apply ends_queue_reply answer
      intro _
      rw [header, view]
      exact owner_in_service attributed.settled connected

end Works

theorem step_works {cfg : Config} {server after : Server} {act : Act}
    (attributed : Attributed server) (disciplined : Disciplined server act)
    (moves : MovesBytes act) (taken : step cfg server act = some after) :
    session after = session server ∨
      ∃ now, actTime act = some now ∧ Works cfg now server after := by
  cases stepped_of_step taken with
  | epollInit ctl now _ empty done => exact moves.elim
  | accept oldc outcomes nonblockOk ctlOk now => exact moves.elim
  | monitorPop curTime => exact moves.elim
  | monitorCheck now tmpmsg rest => exact moves.elim
  | recycle currtime => exact moves.elim
  | event c revents recv send ctlOk junk nowMs now =>
      exact Or.inr ⟨now, rfl, works_ends
        (ends_event c disciplined revents recv send ctlOk junk nowMs)⟩
  | msgSend msg now => exact Or.inr ⟨now, rfl, works_ends (ends_queue_reply msg disciplined.2)⟩
  | semWait interrupted => exact Or.inl rfl
  | beginPass => exact Or.inl rfl
  | element outcome ctlOk pos pMsgBuf =>
      exact Or.inl (session_of_send (forget_send_send_element server pos pMsgBuf outcome ctlOk))
  | endPass => exact Or.inl rfl
  | take worker jobbuf rest => exact Or.inl rfl
  | process worker jobbuf junk now =>
      have works : Works cfg now server (processMessage cfg server jobbuf junk now) :=
        works_process_message attributed jobbuf junk
      obtain ⟨marked, marks, ends⟩ := works
      exact Or.inr ⟨now, rfl, marked, marks, ends_then_quiet ends rfl⟩
  | release worker jobbuf => exact Or.inl rfl
  | close c now =>
      exact Or.inr ⟨now, rfl, works_ends (Or.inr ⟨c, server, disciplined, rfl, rfl⟩)⟩

/-- A step at a time that is not before the last one. -/
def timedStep (cfg : Config) (state : Server × Int) (act : Act) : Option (Server × Int) :=
  match actTime act with
  | none => (step cfg state.1 act).map fun after => (after, state.2)
  | some now =>
      if state.2 ≤ now then (step cfg state.1 act).map fun after => (after, now) else none

theorem timed_step_cases {cfg : Config} {server after : Server} {clock later : Int} {act : Act}
    (taken : timedStep cfg (server, clock) act = some (after, later)) :
    step cfg server act = some after ∧ clock ≤ later ∧
      (∀ now, actTime act = some now → later = now) := by
  unfold timedStep at taken
  split at taken
  case h_1 none =>
    obtain ⟨next, stepped, same⟩ := Option.map_eq_some_iff.mp taken
    cases same
    refine ⟨stepped, le_rfl, fun now reads => ?_⟩
    rw [none] at reads
    cases reads
  case h_2 now reads =>
    obtain ⟨forward, moved⟩ := Option.ite_none_right_eq_some.mp taken
    obtain ⟨next, stepped, same⟩ := Option.map_eq_some_iff.mp moved
    cases same
    refine ⟨stepped, forward, fun time equal => ?_⟩
    exact Option.some.inj (reads.symm.trans equal)

def TimedSteps (cfg : Config) (allowed : Server → Act → Prop) :
    Server × Int → Server × Int → Prop :=
  TransitionSystem.Steps (timedStep cfg) fun state act => allowed state.1 act

theorem timed_invariant {cfg : Config} {allowed : Server → Act → Prop}
    (invariant : Server → Int → Prop)
    (preserved : ∀ server clock act after later, invariant server clock → allowed server act →
      timedStep cfg (server, clock) act = some (after, later) → invariant after later)
    {first second : Server × Int} (steps : TimedSteps cfg allowed first second)
    (holds : invariant first.1 first.2) : invariant second.1 second.2 := by
  induction steps with
  | refl => exact holds
  | tail _ last ih =>
      obtain ⟨act, permitted, taken⟩ := last
      exact preserved _ _ act _ _ ih permitted taken

theorem timed_attributed {cfg : Config} {first second : Server × Int}
    (steps : TimedSteps cfg Disciplined first second) (attributed : Attributed first.1) :
    Attributed second.1 :=
  timed_invariant (fun server _ => Attributed server)
    (fun _ _ _ _ _ holds disciplined taken =>
      attributed_step holds disciplined (timed_step_cases taken).1) steps attributed

def timedRun (cfg : Config) (allowed : Server → Act → Prop)
    [∀ server act, Decidable (allowed server act)] (start : Server × Int) (acts : List Act) :
    Option (Server × Int) :=
  TransitionSystem.exec (timedStep cfg) (fun state act => decide (allowed state.1 act)) start acts

theorem timed_of_run {cfg : Config} {allowed : Server → Act → Prop}
    [∀ server act, Decidable (allowed server act)] {start finish : Server × Int} {acts : List Act}
    (executed : timedRun cfg allowed start acts = some finish) :
    TimedSteps cfg allowed start finish :=
  TransitionSystem.steps_of_exec (fun _ _ => of_decide_eq_true) executed

end NgxServer.Session
