import NgxServer.SendRefinement

/-!
# No cross-talk between the users of a connection object

A header compares equal to the sequence number of its connection exactly as
long as the occupancy that stamped it is open. So a request is dispatched, a
heartbeat kick made and a byte sent only for the occupancy it belongs to, how
often the object may have been recycled and issued again.
-/

namespace NgxServer.CrossTalk

open NgxServer.Comm NgxServer.State NgxServer.Socket NgxServer.Request NgxServer.Accept
open NgxServer.System NgxServer.PoolRefinement NgxServer.Occupancy NgxServer.SendMachine
open NgxServer.SendRefinement
open BlockHeap (null)

set_option autoImplicit false

/-- The bytes that a call sent come from a packet of the occupancy that its
connection served. -/
def SentOwn (call : SendCall) : Prop :=
  ∃ hdr, call.source = some hdr ∧ hdr.occ = call.occ ∧ call.occ ≠ none ∧
    (call.written.length : Int) = call.sendsize

/-- Disciplined steps, with packets as the server builds them. The write
handler is entered for an open connection only while a packet is pending. -/
def Attended (cfg : Config) (server : Server) (act : Act) : Prop :=
  Disciplined server act ∧
    match act with
    | .msgSend msg _ => Sized msg
    | .event c revents recv _ _ junk nowMs now =>
        let served := readSide cfg server c revents recv junk nowMs now
        hasFlag revents epollOut = true → served.ghost.occ c ≠ none →
          hasFlag revents (epollErr ||| epollHup ||| epollRdhup) = true ∨
            (served.conns c).send.psendMemPointer ≠ null
    | _ => True

instance (cfg : Config) (server : Server) : DecidablePred (Attended cfg server) :=
  decidableWith server (fun _ _ => inferInstanceAs (Decidable (Sized _)))
    (fun _ _ _ _ _ _ _ _ => inferInstanceAs (Decidable (_ → _ → _ ∨ _)))
    (fun _ _ => isTrue trivial)
    fun act inner => by cases act <;> first | exact trivial | exact inner.elim

def attendedRules : Rules where
  mayStart := fun _ _ => True
  mayWrite := fun state c _ _ => (state.send c).psendMemPointer ≠ null
  mayUncount := fun _ _ => True

structure SendsOwn (state : SendState) : Prop where
  pending : ∀ c o, state.occ c = some o → (state.send c).psendMemPointer ≠ null →
    ∃ msg, state.sheap.block (state.send c).psendMemPointer = some msg ∧ msg.hdr.occ = some o
  sent : ∀ call ∈ state.sends, call.sendsize > 0 → SentOwn call

section Moves

variable {state after : SendState}

/-- Moves that send nothing and leave the pending packets of open connections
where they are. -/
theorem own_of_quiet (own : SendsOwn state) (sends : after.sends = state.sends)
    (quiet : ∀ c, after.occ c ≠ none → (after.send c).psendMemPointer ≠ null →
      after.occ c = state.occ c ∧
        (after.send c).psendMemPointer = (state.send c).psendMemPointer ∧
        after.sheap.block (state.send c).psendMemPointer =
          state.sheap.block (state.send c).psendMemPointer) : SendsOwn after where
  pending := by
    intro c o serves pending
    obtain ⟨occ, pointer, content⟩ := quiet c (by simp [serves]) pending
    rw [pointer] at pending ⊢
    rw [content]
    exact own.pending c o (occ.symm.trans serves) pending
  sent := by
    rw [sends]
    exact own.sent

/-- A call that sends from the pending packet of an open connection. -/
theorem sent_own (own : SendsOwn state) (sound : SendSound state) {c : ConnId} {o : OccId}
    (serves : state.occ c = some o) (pending : (state.send c).psendMemPointer ≠ null)
    (byWriteHandler partlySent : Bool) {sendsize : Int}
    (bound : sendsize ≤ (state.send c).isendlen) (positive : sendsize > 0) :
    SentOwn (state.sendCall c byWriteHandler partlySent sendsize) := by
  obtain ⟨msg, content, occ⟩ := own.pending c o serves pending
  obtain ⟨source, -, length⟩ :=
    send_call_pending sound pending content byWriteHandler partlySent bound
  refine ⟨msg.hdr, source, occ.trans serves.symm, ?_, ?_⟩
  · intro closed
    have serving : (state.sendCall c byWriteHandler partlySent sendsize).occ = some o := serves
    rw [closed] at serving
    cases serving
  · rw [length]
    exact Int.toNat_of_nonneg (by omega)

/-- The packet under the iterator belongs to the occupancy that gets it. -/
theorem own_begin {pos buf : Nat} {msg : MsgBuf} (own : SendsOwn state)
    (here : Current state pos buf msg) (owner : state.occ msg.hdr.pConn = msg.hdr.occ) :
    SendsOwn (state.begin pos buf msg) where
  pending := by
    intro c o serves pending
    by_cases same : c = msg.hdr.pConn
    · subst same
      rw [SendState.begin, set_send_self]
      exact ⟨msg, here.content, owner.symm.trans serves⟩
    · rw [SendState.begin, set_send_ne _ _ same] at pending ⊢
      exact own.pending c o serves pending
  sent := own.sent

theorem own_start {pos buf : Nat} {msg : MsgBuf} {progress : Progress} (own : SendsOwn state)
    (sound : SendSound state) (here : Current state pos buf msg) (armed : Bool)
    (owner : state.occ msg.hdr.pConn = msg.hdr.occ) (live : msg.hdr.occ ≠ none)
    (fits : progress.Fits (pkgLen msg.pkg)) :
    SendsOwn (state.start pos buf msg progress armed) := by
  have held : Holds state (.slot pos) buf := here.current
  have notNull := Ownership.held_ne_null sound.exclusive held
  have begunSound := sound_begin sound here.current here.content
  have begun := own_begin own here owner
  obtain ⟨o, serves⟩ := Option.ne_none_iff_exists'.mp live
  constructor
  · intro c p serving pending
    rw [start_occ] at serving
    rw [start_send] at pending ⊢
    rw [start_sheap]
    by_cases same : c = msg.hdr.pConn
    · subst same
      rw [Function.update_self] at pending ⊢
      cases progress with
      | part count => exact ⟨msg, here.content, owner.symm.trans serving⟩
      | blocked => exact ⟨msg, here.content, owner.symm.trans serving⟩
      | done sendsize => exact absurd rfl pending
    · rw [Function.update_of_ne same] at pending ⊢
      rw [free_ended_block]
      · exact own.pending c p serving pending
      · intro equal
        have also : Holds state (.conn c) buf := ⟨equal, notNull⟩
        cases sound.exclusive.unique _ _ _ held also
  · rw [start_sends]
    intro call member positive
    rcases List.mem_append.mp member with older | new
    · exact own.sent call older positive
    · rw [List.mem_singleton.mp new] at positive ⊢
      refine sent_own begun begunSound (owner.trans serves) ?_ _ _ ?_ positive
      · rw [SendState.begin, set_send_self]
        exact notNull
      · rw [SendState.begin, set_send_self]
        exact progress_fits_le fits

theorem own_write {c : ConnId} {progress : Progress} (own : SendsOwn state)
    (sound : SendSound state) (armed : Bool) (fits : progress.Fits (state.send c).isendlen)
    (dead : state.occ c = none → progress = .done (-2))
    (may : state.occ c ≠ none → (state.send c).psendMemPointer ≠ null) :
    SendsOwn (state.write c progress armed) := by
  constructor
  · intro d o serving pending
    rw [write_occ] at serving
    rw [write_send] at pending ⊢
    rw [write_sheap]
    by_cases same : d = c
    · subst same
      rw [Function.update_self] at pending ⊢
      cases progress with
      | part count => exact own.pending d o serving pending
      | blocked => exact own.pending d o serving pending
      | done sendsize => exact absurd rfl pending
    · rw [Function.update_of_ne same] at pending ⊢
      rw [free_ended_block _ _ (pending_distinct sound same pending)]
      exact own.pending d o serving pending
  · rw [write_sends]
    intro call member positive
    rcases List.mem_append.mp member with older | new
    · exact own.sent call older positive
    · rw [List.mem_singleton.mp new] at positive ⊢
      by_cases closed : state.occ c = none
      · rw [dead closed] at positive
        have impossible : (-2 : Int) > 0 := positive
        omega
      · obtain ⟨o, serves⟩ := Option.ne_none_iff_exists'.mp closed
        exact sent_own own sound serves (may closed) _ _ (progress_fits_le fits) positive

theorem own_move (sound : SendSound state) (own : SendsOwn state)
    (move : SendMove attendedRules state after) : SendsOwn after := by
  cases move with
  | reset c part unowned =>
      refine own_of_quiet own rfl fun d live _ => ?_
      have other : d ≠ c := by
        rintro rfl
        exact live unowned
      have same : (state.reset c part).send d = state.send d := Function.update_of_ne other _ _
      exact ⟨rfl, by rw [same], rfl⟩
  | own c unowned idle =>
      refine own_of_quiet own rfl fun d live pending => ?_
      have other : d ≠ c := by
        rintro rfl
        exact pending idle
      exact ⟨Function.update_of_ne other _ _, rfl, rfl⟩
  | release c =>
      refine own_of_quiet own rfl fun d live pending => ?_
      obtain ⟨other, -⟩ := live_elsewhere live
      have same : (state.release c).send d = state.send d := by
        rw [SendState.release, SendState.dropPending, set_send_ne _ _ other]
      rw [same] at pending ⊢
      refine ⟨Function.update_of_ne other _ _, rfl, ?_⟩
      have distinct := pending_distinct sound other pending
      exact (BlockHeap.free_block _ _ _).trans (if_neg fun both => distinct both.2)
  | close c opened =>
      refine own_of_quiet own rfl fun d live _ => ?_
      obtain ⟨other, -⟩ := live_elsewhere live
      have same : (state.close c opened).send d = state.send d := set_send_ne _ _ other
      exact ⟨Function.update_of_ne other _ _, by rw [same], rfl⟩
  | discard msg =>
      refine own_of_quiet own rfl fun d _ pending => ⟨rfl, rfl, ?_⟩
      exact discard_block state msg (next_not_pending sound d pending)
  | push msg =>
      refine own_of_quiet own rfl fun d _ pending => ⟨rfl, rfl, ?_⟩
      exact push_block state msg (next_not_pending sound d pending)
  | dropStale pos buf msg here =>
      refine own_of_quiet own rfl fun d _ pending => ⟨rfl, rfl, ?_⟩
      exact drop_stale_block sound here.current pending
  | arm c mask armed | wake interrupted | beginPass | endPass pos | skip pos buf msg =>
      exact own_of_quiet own rfl fun _ _ _ => ⟨rfl, rfl, rfl⟩
  | start pos buf msg progress armed here owner live free fits =>
      exact own_start own sound here armed owner live fits
  | write c progress armed fits dead may => exact own_write own sound armed fits dead may
  | uncount c =>
      refine own_of_quiet own rfl fun d _ _ => ⟨rfl, ?_, rfl⟩
      by_cases same : d = c
      · subst same
        rw [SendState.uncount, set_send_self]
      · rw [SendState.uncount, set_send_ne _ _ same]

end Moves

theorem stamped_le {pool : QuarantinePool.Pool} {limbo : List Nat} {hdr : MsgHeader}
    (stamps : QuarantinePool.Stamps pool limbo) (stamped : Stamped pool hdr) :
    hdr.iCurrsequence ≤ pool.generation hdr.pConn := by
  obtain ⟨o, started, -, stamp⟩ := id stamped
  by_cases live : pool.owner hdr.pConn = some o
  · have current := stamps.current hdr.pConn o live
    rw [stamp] at current
    exact Nat.le_of_eq (Prod.mk.inj current).2
  · have older := stamps.past o started
    rw [stamp] at older
    exact Nat.le_of_lt (older live)

theorem steps_keep_stamps {cfg : Config} {server later : Server} (attributed : Attributed server)
    (run : TransitionSystem.Steps (step cfg) (Attended cfg) server later) :
    Attributed later ∧ QuarantinePool.KeepsStamps (poolView server) (poolView later) := by
  refine ⟨TransitionSystem.steps_preserve (fun _ _ _ before attended taken =>
    attributed_step before attended.1 taken) run attributed, ?_⟩
  refine TransitionSystem.steps_relate Attributed
    (fun early late => QuarantinePool.KeepsStamps (poolView early) (poolView late))
    (fun _ _ _ before attended taken => attributed_step before attended.1 taken)
    (fun _ => QuarantinePool.keeps_stamps_refl _) ?_ attributed run
  intro start before act after kept holds attended taken
  exact QuarantinePool.keeps_stamps_trans kept (effect_step holds attended.1 taken).keeps

structure NoCrossTalk (server : Server) : Prop where
  sent : ∀ call ∈ server.ghost.sends, call.sendsize > 0 → SentOwn call
  dispatched : ∀ entry ∈ server.ghost.dispatches, Owned entry
  kicked : ∀ entry ∈ server.ghost.pingKicks, Owned entry

theorem fresh_sends_own {server : Server} (fresh : Fresh server) :
    SendsOwn (sendState server) := by
  obtain ⟨listenFds, -, -, rfl⟩ := fresh
  exact ⟨nofun, nofun⟩

theorem attended_permits {cfg : Config} {server : Server} {act : Act}
    (attended : Attended cfg server act) : Permits attendedRules cfg server act := by
  obtain ⟨-, attends⟩ := attended
  cases act with
  | event c revents recv send ctlOk junk nowMs now =>
      intro out
      split
      · trivial
      case isFalse plain => exact fun live => (attends out live).resolve_left plain
  | msgSend msg now => exact attends
  | element outcome ctlOk => exact fun _ => trivial
  | _ => trivial

/-- In every run nothing is sent, dispatched or kicked for another occupancy
than its own; and a header stamped in an open occupancy is current, in the
64 bits that are compared, exactly until that occupancy is closed. -/
theorem no_cross_talk (cfg : Config) (server : Server)
    (reached : Reachable cfg (Attended cfg) server) :
    NoCrossTalk server ∧
      ∀ c o later, server.ghost.occ c = some o →
        TransitionSystem.Steps (step cfg) (Attended cfg) server later →
        (later.conns c).iCurrsequence < 2 ^ 64 →
        ((stampNow server c).iCurrsequence % 2 ^ 64 = (later.conns c).iCurrsequence % 2 ^ 64 ↔
          later.ghost.occ c = some o) := by
  obtain ⟨attributed, -, own⟩ := reachable_send_state (fun _ => fresh_sends_own)
    (fun _ _ => own_move) (fun _ _ attended => attended.1) (fun _ _ => attended_permits) reached
  refine ⟨⟨own.sent, attributed.dispatched, attributed.kicked⟩, ?_⟩
  intro c o later serves run bound
  obtain ⟨still, keeps⟩ := steps_keep_stamps attributed run
  have stamped := stamped_keeps keeps
    (stamp_now_stamped (settled_stamps attributed.settled) serves)
  have current := stamped_current (settled_stamps still.settled) stamped
  have older : (stampNow server c).iCurrsequence ≤ (later.conns c).iCurrsequence :=
    stamped_le (settled_stamps still.settled) stamped
  rw [Nat.mod_eq_of_lt (by omega), Nat.mod_eq_of_lt bound, ← serves]
  exact current

/-- A client is closed while the rest of its packet waits: a header that it
stamped is no longer current. -/
theorem no_cross_talk_sample :
    ∃ server later : Server, NoCrossTalk server ∧ server.ghost.occ 1 = some 0 ∧
      later.ghost.occ 1 = none ∧ (later.conns 1).iCurrsequence < 2 ^ 64 ∧
      ¬ (stampNow server 1).iCurrsequence % 2 ^ 64 = (later.conns 1).iCurrsequence % 2 ^ 64 := by
  have seen : (run sampleConfig (Attended sampleConfig)
      [.epollInit (fun _ => true) 1000, .accept 0 [.ok 5] true true 1001,
        .msgSend
          { hdr := { pConn := 1, iCurrsequence := 1, occ := some 0 }, pkg := encodeHeader 8 0 0 }
          1002, .semWait false, .beginPass, .element (.sent 3) true]).map (fun server =>
      (server.ghost.occ 1, decide (Disciplined server (.close 1 1003)),
        (step sampleConfig server (.close 1 1003)).map fun later =>
          (later.ghost.occ 1, (later.conns 1).iCurrsequence))) =
      some (some 0, true, some (none, 2)) := by
    decide
  obtain ⟨server, reached, same⟩ := reachable_of_seen seen
  simp only [Prod.mk.injEq] at same
  obtain ⟨serves, disciplined, stepped⟩ := same
  obtain ⟨later, taken, ends⟩ := Option.map_eq_some_iff.mp stepped
  obtain ⟨finished, seq⟩ := Prod.mk.inj ends
  have result := no_cross_talk sampleConfig server reached
  have bound : (later.conns 1).iCurrsequence < 2 ^ 64 := by omega
  have run : TransitionSystem.Steps (step sampleConfig) (Attended sampleConfig) server later :=
    TransitionSystem.steps_single ⟨of_decide_eq_true disciplined, trivial⟩ taken
  refine ⟨server, later, result.1, serves, finished, bound, fun equal => ?_⟩
  have still := (result.2 1 0 later serves run bound).mp equal
  rw [finished] at still
  cases still

end NgxServer.CrossTalk
