import NgxServer.SendBacklog
import NgxServer.SendFraming
import NgxServer.TimerCoverage

/-!
# Replies that come too late

A worker checks the sequence number of its request before it calls the
handler, and the connection may be closed and issued again before the handler
calls `msgSend`. `msgSend` does not look at the sequence number: it counts the
packet for whoever has the connection now, or closes the connection if there
are too many already. The send thread drops the packet and leaves the count.
-/

namespace NgxServer.StaleReply

open NgxServer.Comm NgxServer.State NgxServer.ConnPool NgxServer.TimerQueue NgxServer.Socket
open NgxServer.Accept NgxServer.Logic NgxServer.System NgxServer.Frames NgxServer.PoolRefinement
open NgxServer.Occupancy NgxServer.SendMachine NgxServer.SendRefinement NgxServer.SendFraming
open NgxServer.SendBacklog NgxServer.TimerClock NgxServer.TimerCoverage NgxServer.Clients
open BlockHeap (Heap null)
open QuarantinePool (Settled)

set_option autoImplicit false

abbrev Network := Nat → SendOutcome × Bool

def passElements (net : Network) : Nat → Server → Server
  | 0, server => server
  | rounds + 1, server =>
      match elementAt server with
      | none => server
      | some (pos, pMsgBuf) =>
          passElements net rounds
            (sendElement server pos pMsgBuf (net pMsgBuf).1 (net pMsgBuf).2)

/-- What the send thread does from `sem_wait` to `sem_wait`. Every round leaves one
element behind, so the length of the queue bounds their number. -/
def sendThreadPass (net : Network) (server : Server) : Server :=
  { passElements net server.msgSendQueue.length (sendThreadBegin server) with sendPc := .semWait }

/-- What a pass reads and writes. -/
@[ext]
structure Lane where
  pc : SendPc
  queue : List Nat
  block : Nat → Option MsgBuf
  iThrowsendCount : ConnId → Int
  iSendCount : ConnId → Int

def lane (server : Server) : Lane where
  pc := server.sendPc
  queue := server.msgSendQueue
  block := server.sheap.block
  iThrowsendCount := fun c => (server.conns c).send.iThrowsendCount
  iSendCount := fun c => (server.conns c).security.iSendCount

def Lane.free (lane : Lane) (buf : Nat) : Lane :=
  { lane with block := if buf = null then lane.block else Function.update lane.block buf none }

def Lane.sendNow (lane : Lane) (pos buf : Nat) (c : ConnId) : Progress → Lane
  | .done _ =>
      { lane with
        queue := lane.queue.eraseIdx pos
        iThrowsendCount := Function.update lane.iThrowsendCount c 0
        iSendCount := Function.update lane.iSendCount c (lane.iSendCount c - 1) }.free buf
  | _ =>
      { lane with
        queue := lane.queue.eraseIdx pos
        iThrowsendCount := Function.update lane.iThrowsendCount c (lane.iThrowsendCount c + 1)
        iSendCount := Function.update lane.iSendCount c (lane.iSendCount c - 1) }

def Lane.element (conns : ConnId → NgxConnection) (lane : Lane) (pos buf : Nat)
    (outcome : SendOutcome) : Lane :=
  match lane.block buf with
  | none => lane
  | some msg =>
      if (conns msg.hdr.pConn).iCurrsequence ≠ msg.hdr.iCurrsequence then
        { lane with queue := lane.queue.eraseIdx pos }.free buf
      else if lane.iThrowsendCount msg.hdr.pConn > 0 then { lane with pc := .pass (pos + 1) }
      else lane.sendNow pos buf msg.hdr.pConn (progressOf (pkgLen msg.pkg)
        (if (conns msg.hdr.pConn).fd = -1 then -2 else outcome.result))

theorem free_block_fun (heap : Heap MsgBuf) (buf : Nat) : (BlockHeap.free heap buf).block =
    if buf = null then heap.block else Function.update heap.block buf none := by
  unfold BlockHeap.free
  split <;> rfl

theorem started_throwsend (part : SendPart) (buf : Nat) (msg : MsgBuf) (progress : Progress) :
    (startedPart part buf msg progress).iThrowsendCount =
      match progress with
      | .done _ => 0
      | _ => part.iThrowsendCount + 1 := by
  cases progress <;> rfl

theorem lane_send_now (server : Server) (pos buf : Nat) (msg : MsgBuf) (outcome : SendOutcome)
    (ctlOk : Bool) : lane (sendElementNow server pos buf msg outcome ctlOk) =
      (lane server).sendNow pos buf msg.hdr.pConn
        (progressOf (pkgLen msg.pkg) (sendsizeOn server msg.hdr.pConn outcome)) := by
  have sent := send_element_now_send_state server pos buf msg outcome ctlOk
  have counted := (counters_send_element_now server pos buf msg outcome ctlOk).trans
    (counters_start_packet server pos buf msg)
  generalize progressOf (pkgLen msg.pkg) (sendsizeOn server msg.hdr.pConn outcome) = progress
    at sent ⊢
  have send := congrArg SendState.send sent
  have pc := congrArg SendState.pc sent
  have heap := congrArg (fun state : SendState => state.sheap.block) sent
  rw [start_send] at send
  rw [start_sheap] at heap
  rw [(start_rest _ _ _ _ _ _).2.2.2.2] at pc
  have throws : (lane (sendElementNow server pos buf msg outcome ctlOk)).iThrowsendCount =
      Function.update (lane server).iThrowsendCount msg.hdr.pConn
        (startedPart (server.conns msg.hdr.pConn).send buf msg progress).iThrowsendCount := by
    funext d
    have part := congrArg SendPart.iThrowsendCount (congrFun send d)
    rw [Function.update_apply] at part ⊢
    split at part
    case isTrue same =>
      rw [if_pos same]
      exact part
    case isFalse other =>
      rw [if_neg other]
      exact part
  rw [started_throwsend] at throws
  cases progress with
  | part count | blocked =>
      exact Lane.ext pc (congrArg Counters.queue counted) heap throws
        (congrArg Counters.waiting counted)
  | done sendsize =>
      exact Lane.ext pc (congrArg Counters.queue counted)
        (heap.trans (free_block_fun server.sheap buf)) throws (congrArg Counters.waiting counted)

theorem lane_element (server : Server) (pos buf : Nat) (outcome : SendOutcome) (ctlOk : Bool) :
    lane (sendElement server pos buf outcome ctlOk) =
      (lane server).element server.conns pos buf outcome := by
  have blocks : (lane server).block buf = server.sheap.block buf := rfl
  unfold sendElement Lane.element
  rw [blocks]
  cases live : server.sheap.block buf with
  | none => rfl
  | some msg =>
      have throwsend : (lane server).iThrowsendCount msg.hdr.pConn =
          (server.conns msg.hdr.pConn).send.iThrowsendCount := rfl
      dsimp only
      rw [throwsend]
      by_cases stale : (server.conns msg.hdr.pConn).iCurrsequence ≠ msg.hdr.iCurrsequence
      · rw [if_pos stale, if_pos stale]
        exact Lane.ext rfl rfl (free_block_fun server.sheap buf) rfl rfl
      · rw [if_neg stale, if_neg stale]
        by_cases busy : (server.conns msg.hdr.pConn).send.iThrowsendCount > 0
        · rw [if_pos busy, if_pos busy]
          rfl
        · rw [if_neg busy, if_neg busy]
          exact lane_send_now server pos buf msg outcome ctlOk

/-- Two states in which a pass does the same up to the end of the first one's queue:
the second has more elements behind it, and its counters are higher. -/
structure Alike (extra : ConnId → Int) (tail : List Nat) (first second : Lane) : Prop where
  pc : second.pc = first.pc
  queue : second.queue = first.queue ++ tail
  block : ∀ buf ∈ first.queue, second.block buf = first.block buf
  iThrowsendCount : second.iThrowsendCount = first.iThrowsendCount
  iSendCount : ∀ c, second.iSendCount c = first.iSendCount c + extra c

structure Lane.Sound (lane : Lane) : Prop where
  nodup : lane.queue.Nodup
  live : ∀ buf ∈ lane.queue, (lane.block buf).isSome

section Element

variable {conns : ConnId → NgxConnection} {lane first second : Lane} {extra : ConnId → Int}
  {tail : List Nat} {pos buf : Nat}

theorem free_block_of_ne (lane : Lane) {other : Nat} (apart : other ≠ buf) :
    (lane.free buf).block other = lane.block other := by
  unfold Lane.free
  dsimp only
  split
  · rfl
  · exact Function.update_of_ne apart _ _

theorem alike_free (alike : Alike extra tail first second) :
    Alike extra tail (first.free buf) (second.free buf) := by
  refine ⟨alike.pc, alike.queue, fun other waits => ?_, alike.iThrowsendCount, alike.iSendCount⟩
  have same := alike.block other waits
  unfold Lane.free
  dsimp only
  split
  · exact same
  · rw [Function.update_apply, Function.update_apply, same]

/-- An element is stepped over, or leaves the queue; other packets stay. -/
theorem element_rest (conns : ConnId → NgxConnection) (lane : Lane) (pos : Nat) {buf : Nat}
    (outcome : SendOutcome) (live : (lane.block buf).isSome) :
    lane.element conns pos buf outcome = { lane with pc := .pass (pos + 1) } ∨
      (lane.element conns pos buf outcome).queue = lane.queue.eraseIdx pos ∧
        (lane.element conns pos buf outcome).pc = lane.pc ∧
        ∀ other, other ≠ buf →
          (lane.element conns pos buf outcome).block other = lane.block other := by
  obtain ⟨msg, content⟩ := Option.isSome_iff_exists.mp live
  unfold Lane.element
  rw [content]
  dsimp only
  split_ifs
  · exact Or.inr ⟨rfl, rfl, fun other apart => free_block_of_ne _ apart⟩
  · exact Or.inl rfl
  all_goals
    generalize progressOf (pkgLen msg.pkg) _ = progress
    cases progress with
    | part count | blocked => exact Or.inr ⟨rfl, rfl, fun _ _ => rfl⟩
    | done sendsize => exact Or.inr ⟨rfl, rfl, fun other apart => free_block_of_ne _ apart⟩

theorem alike_erase (alike : Alike extra tail first second) (inside : pos < first.queue.length) :
    second.queue.eraseIdx pos = first.queue.eraseIdx pos ++ tail := by
  rw [alike.queue, List.eraseIdx_append_of_lt_length inside]

theorem alike_send_now (alike : Alike extra tail first second)
    (inside : pos < first.queue.length) (c : ConnId) (progress : Progress) :
    Alike extra tail (first.sendNow pos buf c progress) (second.sendNow pos buf c progress) := by
  have queue := alike_erase alike inside
  have block : ∀ other ∈ first.queue.eraseIdx pos, second.block other = first.block other :=
    fun other waits => alike.block other (List.mem_of_mem_eraseIdx waits)
  have counts : ∀ d, Function.update second.iSendCount c (second.iSendCount c - 1) d =
      Function.update first.iSendCount c (first.iSendCount c - 1) d + extra d := by
    intro d
    rw [Function.update_apply, Function.update_apply]
    have counted := alike.iSendCount d
    split
    case isTrue same =>
      rw [same] at counted ⊢
      omega
    case isFalse => exact counted
  cases progress with
  | part count | blocked =>
      refine ⟨alike.pc, queue, block, ?_, counts⟩
      dsimp only [Lane.sendNow]
      rw [alike.iThrowsendCount]
  | done sendsize =>
      refine alike_free ⟨alike.pc, queue, block, ?_, counts⟩
      dsimp only
      rw [alike.iThrowsendCount]

theorem alike_element (alike : Alike extra tail first second)
    (here : first.queue[pos]? = some buf) (outcome : SendOutcome) :
    Alike extra tail (first.element conns pos buf outcome)
      (second.element conns pos buf outcome) := by
  have inside : pos < first.queue.length := (List.getElem?_eq_some_iff.mp here).1
  have same := alike.block buf (List.mem_of_getElem? here)
  unfold Lane.element
  rw [same, alike.iThrowsendCount]
  cases first.block buf with
  | none => exact alike
  | some msg =>
      dsimp only
      by_cases stale : (conns msg.hdr.pConn).iCurrsequence ≠ msg.hdr.iCurrsequence
      · rw [if_pos stale, if_pos stale]
        refine alike_free ⟨alike.pc, alike_erase alike inside, fun other waits => ?_, rfl,
          alike.iSendCount⟩
        exact alike.block other (List.mem_of_mem_eraseIdx waits)
      · rw [if_neg stale, if_neg stale]
        split
        · exact ⟨rfl, alike.queue, alike.block, rfl, alike.iSendCount⟩
        · exact alike_send_now alike inside msg.hdr.pConn _

theorem sound_element (sound : lane.Sound) (here : lane.queue[pos]? = some buf)
    (outcome : SendOutcome) : (lane.element conns pos buf outcome).Sound := by
  have live := sound.live buf (List.mem_of_getElem? here)
  rcases element_rest conns lane pos outcome live with skipped | ⟨queue, -, others⟩
  · rw [skipped]
    exact ⟨sound.nodup, sound.live⟩
  · have perm := Backlog.erase_perm here
    have distinct := List.nodup_cons.mp (perm.nodup_iff.mp sound.nodup)
    refine ⟨by rw [queue]; exact distinct.2, fun other waits => ?_⟩
    rw [queue] at waits
    have apart : other ≠ buf := by
      rintro rfl
      exact distinct.1 waits
    rw [others other apart]
    exact sound.live other (List.mem_of_mem_eraseIdx waits)

end Element

def SameObjects (first second : Server) : Prop :=
  ∀ c, (second.conns c).fd = (first.conns c).fd ∧
    (second.conns c).iCurrsequence = (first.conns c).iCurrsequence

theorem element_congr {first second : Server} (same : SameObjects first second) (lane : Lane)
    (pos buf : Nat) (outcome : SendOutcome) :
    lane.element second.conns pos buf outcome = lane.element first.conns pos buf outcome := by
  unfold Lane.element
  cases lane.block buf with
  | none => rfl
  | some msg =>
      dsimp only
      rw [(same msg.hdr.pConn).1, (same msg.hdr.pConn).2]

section Pass

variable {net : Network} {server first second : Server} {extra : ConnId → Int}
  {tail : List Nat} {pos buf : Nat}

theorem send_element_objects (server : Server) (pos buf : Nat) (outcome : SendOutcome)
    (ctlOk : Bool) : SameObjects server (sendElement server pos buf outcome ctlOk) := by
  have frame := forget_send_send_element server pos buf outcome ctlOk
  intro c
  have fd := congrArg (fun server => (server.conns c).fd) frame
  have seq := congrArg (fun server => (server.conns c).iCurrsequence) frame
  exact ⟨fd, seq⟩

theorem same_objects_element (same : SameObjects first second) (outcome : SendOutcome)
    (ctlOk : Bool) : SameObjects (sendElement first pos buf outcome ctlOk)
      (sendElement second pos buf outcome ctlOk) := by
  intro c
  have left := send_element_objects first pos buf outcome ctlOk c
  have right := send_element_objects second pos buf outcome ctlOk c
  exact ⟨right.1.trans ((same c).1.trans left.1.symm),
    right.2.trans ((same c).2.trans left.2.symm)⟩

theorem pass_round (rounds : Nat) (iterator : server.sendPc = .pass pos)
    (here : server.msgSendQueue[pos]? = some buf) :
    passElements net (rounds + 1) server =
      passElements net rounds (sendElement server pos buf (net buf).1 (net buf).2) := by
  rw [passElements, elementAt, iterator]
  dsimp only
  rw [here]
  rfl

/-- One round brings the iterator one element closer to the end of the queue. -/
theorem element_iterator (iterator : server.sendPc = .pass pos)
    (here : server.msgSendQueue[pos]? = some buf) (live : (server.sheap.block buf).isSome)
    (outcome : SendOutcome) (ctlOk : Bool) :
    ∃ next, (sendElement server pos buf outcome ctlOk).sendPc = .pass next ∧
      (sendElement server pos buf outcome ctlOk).msgSendQueue.length + pos + 1 =
        server.msgSendQueue.length + next := by
  have effect := lane_element server pos buf outcome ctlOk
  have inside : pos < server.msgSendQueue.length := (List.getElem?_eq_some_iff.mp here).1
  rcases element_rest server.conns (lane server) pos outcome live with
    skipped | ⟨queue, pc, -⟩
  · rw [skipped] at effect
    have same : (sendElement server pos buf outcome ctlOk).msgSendQueue = server.msgSendQueue :=
      congrArg Lane.queue effect
    exact ⟨pos + 1, congrArg Lane.pc effect, by rw [same]; omega⟩
  · rw [← effect] at queue pc
    have erased : (sendElement server pos buf outcome ctlOk).msgSendQueue =
        server.msgSendQueue.eraseIdx pos := queue
    refine ⟨pos, pc.trans iterator, ?_⟩
    rw [erased, List.length_eraseIdx_of_lt inside]
    omega

/-- Packets other than the one at the iterator stay, and none comes. -/
theorem element_block (live : (server.sheap.block buf).isSome) (outcome : SendOutcome)
    (ctlOk : Bool) {other : Nat} (apart : other ≠ buf) :
    (sendElement server pos buf outcome ctlOk).sheap.block other = server.sheap.block other := by
  have effect := congrFun (congrArg Lane.block (lane_element server pos buf outcome ctlOk)) other
  rcases element_rest server.conns (lane server) pos outcome live with
    skipped | ⟨-, -, others⟩
  · rw [skipped] at effect
    exact effect
  · exact effect.trans (others other apart)

theorem element_queue (live : (server.sheap.block buf).isSome) (outcome : SendOutcome)
    (ctlOk : Bool) {other : Nat}
    (stays : other ∈ (sendElement server pos buf outcome ctlOk).msgSendQueue) :
    other ∈ server.msgSendQueue := by
  have effect := congrArg Lane.queue (lane_element server pos buf outcome ctlOk)
  have same : (sendElement server pos buf outcome ctlOk).msgSendQueue =
      ((lane server).element server.conns pos buf outcome).queue := effect
  rw [same] at stays
  rcases element_rest server.conns (lane server) pos outcome live with
    skipped | ⟨queue, -, -⟩
  · rw [skipped] at stays
    exact stays
  · rw [queue] at stays
    exact List.mem_of_mem_eraseIdx stays

theorem element_kept (sound : (lane server).Sound) (here : server.msgSendQueue[pos]? = some buf)
    (outcome : SendOutcome) (ctlOk : Bool) {other : Nat}
    (stays : other ∈ (sendElement server pos buf outcome ctlOk).msgSendQueue) :
    (sendElement server pos buf outcome ctlOk).sheap.block other = server.sheap.block other := by
  have live := sound.live buf (List.mem_of_getElem? here)
  have effect := lane_element server pos buf outcome ctlOk
  have block := congrFun (congrArg Lane.block effect) other
  have queue : (sendElement server pos buf outcome ctlOk).msgSendQueue =
      ((lane server).element server.conns pos buf outcome).queue := congrArg Lane.queue effect
  rw [queue] at stays
  rcases element_rest server.conns (lane server) pos outcome live with
    skipped | ⟨erased, -, others⟩
  · rw [skipped] at block
    exact block
  · have distinct := List.nodup_cons.mp
      ((Backlog.erase_perm here).nodup_iff.mp sound.nodup)
    have apart : other ≠ buf := by
      rintro rfl
      rw [erased] at stays
      exact distinct.1 stays
    exact block.trans (others other apart)

/-- Two passes that begin alike stay alike up to the end of the first queue. -/
theorem pass_alike (rounds : Nat) (sound : (lane first).Sound)
    (alike : Alike extra tail (lane first) (lane second)) (same : SameObjects first second)
    (iterator : first.sendPc = .pass pos) (left : pos + rounds = first.msgSendQueue.length) :
    Alike extra tail (lane (passElements net rounds first))
        (lane (passElements net rounds second)) ∧
      (passElements net rounds first).sendPc =
        .pass (passElements net rounds first).msgSendQueue.length ∧
      ∀ other ∉ first.msgSendQueue,
        (passElements net rounds second).sheap.block other = second.sheap.block other := by
  induction rounds generalizing first second pos with
  | zero =>
      refine ⟨alike, ?_, fun _ _ => rfl⟩
      rw [passElements, iterator, ← left]
      rfl
  | succ rounds ih =>
      have inside : pos < first.msgSendQueue.length := by omega
      obtain ⟨buf, here⟩ : ∃ buf, first.msgSendQueue[pos]? = some buf :=
        ⟨_, List.getElem?_eq_getElem inside⟩
      have there : second.msgSendQueue[pos]? = some buf := by
        have queue : second.msgSendQueue = first.msgSendQueue ++ tail := alike.queue
        rw [queue, List.getElem?_append_left inside]
        exact here
      have waits := List.mem_of_getElem? here
      have live : (first.sheap.block buf).isSome := sound.live buf waits
      have alive : (second.sheap.block buf).isSome := by
        have kept : second.sheap.block buf = first.sheap.block buf := alike.block buf waits
        rw [kept]
        exact live
      obtain ⟨next, moved, count⟩ :=
        element_iterator iterator here live (net buf).1 (net buf).2
      have arrived : second.sendPc = .pass pos := alike.pc.trans iterator
      rw [pass_round rounds iterator here, pass_round rounds arrived there]
      have laterSound : (lane (sendElement first pos buf (net buf).1 (net buf).2)).Sound := by
        rw [lane_element]
        exact sound_element sound here _
      have laterAlike : Alike extra tail (lane (sendElement first pos buf (net buf).1 (net buf).2))
          (lane (sendElement second pos buf (net buf).1 (net buf).2)) := by
        rw [lane_element, lane_element, element_congr same]
        exact alike_element alike here _
      obtain ⟨ends, stops, outside⟩ := ih laterSound laterAlike (same_objects_element same _ _)
        moved (by omega)
      refine ⟨ends, stops, fun other absent => ?_⟩
      have apart : other ≠ buf := by
        rintro rfl
        exact absent waits
      rw [outside other fun stays => absent (element_queue live _ _ stays)]
      exact element_block alive _ _ apart

/-- The rounds are steps of the send thread, and they end behind the last element. -/
theorem pass_elements_run {cfg : Config} (rounds : Nat) (sound : (lane server).Sound)
    (possible : ∀ buf ∈ server.msgSendQueue, ∀ msg, server.sheap.block buf = some msg →
      (net buf).1.possible (pkgLen msg.pkg) = true)
    (iterator : server.sendPc = .pass pos) (left : pos + rounds = server.msgSendQueue.length) :
    TransitionSystem.Steps (step cfg) AnyEvent server (passElements net rounds server) ∧
      (passElements net rounds server).sendPc =
        .pass (passElements net rounds server).msgSendQueue.length := by
  induction rounds generalizing server pos with
  | zero =>
      refine ⟨TransitionSystem.steps_refl server, ?_⟩
      rw [passElements, iterator, ← left]
      rfl
  | succ rounds ih =>
      have inside : pos < server.msgSendQueue.length := by omega
      obtain ⟨buf, here⟩ : ∃ buf, server.msgSendQueue[pos]? = some buf :=
        ⟨_, List.getElem?_eq_getElem inside⟩
      have waits := List.mem_of_getElem? here
      obtain ⟨msg, live⟩ := Option.isSome_iff_exists.mp (sound.live buf waits)
      have content : server.sheap.block buf = some msg := live
      obtain ⟨next, moved, count⟩ :=
        element_iterator iterator here (sound.live buf waits) (net buf).1 (net buf).2
      have found : elementAt server = some (pos, buf) := by
        rw [elementAt, iterator]
        dsimp only
        rw [here]
        rfl
      have taken : step cfg server (.element (net buf).1 (net buf).2) =
          some (sendElement server pos buf (net buf).1 (net buf).2) := by
        have able := possible buf waits msg content
        rw [step, found]
        dsimp only
        rw [content, Option.map_some, Option.getD_some, if_pos able]
      have later : (lane (sendElement server pos buf (net buf).1 (net buf).2)).Sound := by
        rw [lane_element]
        exact sound_element sound here _
      rw [pass_round rounds iterator here]
      have still : ∀ other ∈ (sendElement server pos buf (net buf).1 (net buf).2).msgSendQueue,
          ∀ msg, (sendElement server pos buf (net buf).1 (net buf).2).sheap.block other =
            some msg → (net other).1.possible (pkgLen msg.pkg) = true := by
        intro other stays msg there
        rw [element_kept sound here _ _ stays] at there
        exact possible other (element_queue (sound.live buf waits) _ _ stays) msg there
      obtain ⟨steps, stops⟩ := ih later still moved (by omega)
      have any : AnyEvent server (.element (net buf).1 (net buf).2) := ⟨trivial, trivial⟩
      exact ⟨TransitionSystem.steps_cons any taken steps, stops⟩

/-- A pass is what the send thread does between two calls of `sem_wait`. -/
theorem send_thread_pass_run {cfg : Config} (sound : (lane server).Sound)
    (counted : server.iSendMsgQueueCount = server.msgSendQueue.length)
    (possible : ∀ buf ∈ server.msgSendQueue, ∀ msg, server.sheap.block buf = some msg →
      (net buf).1.possible (pkgLen msg.pkg) = true)
    (woken : server.sendPc = .woken) :
    TransitionSystem.Steps (step cfg) AnyEvent server (sendThreadPass net server) := by
  have begins : step cfg server .beginPass = some (sendThreadBegin server) := by
    rw [step, if_pos woken]
  have any : AnyEvent server .beginPass := ⟨trivial, trivial⟩
  apply TransitionSystem.steps_cons any begins
  by_cases empty : server.msgSendQueue.length = 0
  · have ends : sendThreadPass net server = sendThreadBegin server := by
      rw [sendThreadPass, empty, sendThreadBegin, if_neg (by omega)]
      rfl
    rw [ends]
    exact TransitionSystem.steps_refl _
  · have front : (sendThreadBegin server).sendPc = .pass 0 := if_pos (by omega)
    have starts : (lane (sendThreadBegin server)).Sound := ⟨sound.nodup, sound.live⟩
    have both : TransitionSystem.Steps (step cfg) AnyEvent (sendThreadBegin server)
        (passElements net server.msgSendQueue.length (sendThreadBegin server)) ∧ _ :=
      pass_elements_run server.msgSendQueue.length starts possible front (Nat.zero_add _)
    obtain ⟨steps, stops⟩ := both
    apply TransitionSystem.steps_trans steps
    rw [sendThreadPass]
    generalize passElements net server.msgSendQueue.length (sendThreadBegin server) = last at stops
    have free : AnyEvent last .endPass := ⟨trivial, trivial⟩
    apply TransitionSystem.steps_single free
    have inside : inPass last = true := by rw [inPass, stops]
    have finished : elementAt last = none := by
      rw [elementAt, stops]
      dsimp only
      rw [List.getElem?_eq_none le_rfl]
      rfl
    rw [step, if_pos ⟨inside, finished⟩]

theorem pass_elements_frame (rounds : Nat) :
    forgetSend (passElements net rounds server) = forgetSend server := by
  induction rounds generalizing server with
  | zero => rfl
  | succ rounds ih =>
      unfold passElements
      split
      · rfl
      case h_2 pos buf found => exact ih.trans (forget_send_send_element server pos buf _ _)

theorem pass_frame (net : Network) (server : Server) :
    forgetSend (sendThreadPass net server) = forgetSend server :=
  (pass_elements_frame server.msgSendQueue.length : forgetSend (passElements net _
    (sendThreadBegin server)) = _)

theorem lane_sound (sound : SendSound (sendState server)) : (lane server).Sound := by
  refine ⟨?_, fun buf waits => ?_⟩
  · rw [List.nodup_iff_getElem?_ne_getElem?]
    intro index later before inside equal
    obtain ⟨buf, here⟩ : ∃ buf, server.msgSendQueue[index]? = some buf :=
      ⟨_, List.getElem?_eq_getElem (before.trans inside)⟩
    have there : server.msgSendQueue[later]? = some buf := equal.symm.trans here
    have same := sound.exclusive.unique (.slot index) (.slot later) _ here there
    cases same
    exact Nat.lt_irrefl _ before
  · obtain ⟨index, here⟩ := List.mem_iff_getElem?.mp waits
    exact sound.exclusive.live (.slot index) buf here

def atFront (server : Server) : Server := { server with sendPc := .pass 0 }

/-- A pass is the loop from the front of the queue. -/
theorem lane_pass (counted : server.iSendMsgQueueCount = server.msgSendQueue.length) :
    lane (sendThreadPass net server) =
      { lane (passElements net server.msgSendQueue.length (atFront server)) with
        pc := .semWait } := by
  unfold sendThreadPass
  by_cases empty : server.msgSendQueue.length = 0
  · rw [empty]
    rfl
  · have begins : sendThreadBegin server = atFront server := by
      rw [sendThreadBegin, if_pos (by omega)]
      rfl
    rw [begins]
    rfl

/-- A call that leaves the queue and what a pass reads alone does not show in a pass. -/
theorem pass_same (sound : (lane first).Sound)
    (counted : first.iSendMsgQueueCount = first.msgSendQueue.length)
    (counts : counters second = { counters first with discarded := second.iDiscardSendPkgCount })
    (objects : SameObjects first second)
    (throwsend : ∀ c, (second.conns c).send.iThrowsendCount = (first.conns c).send.iThrowsendCount)
    (blocks : ∀ buf ∈ first.msgSendQueue, second.sheap.block buf = first.sheap.block buf) :
    (∀ c, ((sendThreadPass net second).conns c).send.iThrowsendCount =
          ((sendThreadPass net first).conns c).send.iThrowsendCount ∧
        ((sendThreadPass net second).conns c).security.iSendCount =
          ((sendThreadPass net first).conns c).security.iSendCount) ∧
      ∀ other ∉ first.msgSendQueue,
        (sendThreadPass net second).sheap.block other = second.sheap.block other := by
  have queue : second.msgSendQueue = first.msgSendQueue := congrArg Counters.queue counts
  have size : second.iSendMsgQueueCount = first.iSendMsgQueueCount := congrArg Counters.size counts
  have begins : Alike (fun _ => 0) [] (lane (atFront first)) (lane (atFront second)) := by
    refine ⟨rfl, queue.trans (List.append_nil _).symm, blocks, funext throwsend, fun c => ?_⟩
    exact (congrFun (congrArg Counters.waiting counts) c).trans (add_zero _).symm
  have front : (lane (atFront first)).Sound := ⟨sound.nodup, sound.live⟩
  have both : Alike (fun _ => 0) []
      (lane (passElements net first.msgSendQueue.length (atFront first)))
      (lane (passElements net first.msgSendQueue.length (atFront second))) ∧ _ :=
    pass_alike first.msgSendQueue.length front begins objects rfl (Nat.zero_add _)
  obtain ⟨alike, -, outside⟩ := both
  have left : lane (sendThreadPass net first) = _ := lane_pass counted
  have right : lane (sendThreadPass net second) = _ := lane_pass (by rw [size, queue, counted])
  rw [queue] at right
  refine ⟨fun c => ?_, fun other absent =>
    (congrFun (congrArg Lane.block right) other).trans (outside other absent)⟩
  have sends := alike.iSendCount c
  rw [add_zero] at sends
  constructor
  · exact (congrFun (congrArg Lane.iThrowsendCount right) c).trans
      ((congrFun alike.iThrowsendCount c).trans
        (congrFun (congrArg Lane.iThrowsendCount left) c).symm)
  · exact (congrFun (congrArg Lane.iSendCount right) c).trans
      (sends.trans (congrFun (congrArg Lane.iSendCount left) c).symm)

theorem pass_elements_last (rounds : Nat) :
    passElements net (rounds + 1) server = passElements net 1 (passElements net rounds server) := by
  induction rounds generalizing server with
  | zero => rfl
  | succ rounds ih =>
      cases found : elementAt server with
      | none =>
          have stays : ∀ count, passElements net count server = server := by
            intro count
            cases count with
            | zero => rfl
            | succ count => rw [passElements, found]
          rw [stays, stays, stays]
      | some element =>
          have advance : ∀ count, passElements net (count + 1) server = passElements net count
              (sendElement server element.1 element.2 (net element.2).1 (net element.2).2) := by
            intro count
            rw [passElements, found]
          rw [advance, advance]
          exact ih

/-- A packet at the end of the queue that is not current is dropped without being
counted off. -/
theorem pass_more {msg : MsgBuf} (sound : (lane first).Sound)
    (counted : first.iSendMsgQueueCount = first.msgSendQueue.length)
    (queue : second.msgSendQueue = first.msgSendQueue ++ [buf])
    (size : second.iSendMsgQueueCount = first.iSendMsgQueueCount + 1)
    (counts : ∀ c, (second.conns c).security.iSendCount =
      (first.conns c).security.iSendCount + extra c)
    (objects : SameObjects first second)
    (throwsend : ∀ c, (second.conns c).send.iThrowsendCount = (first.conns c).send.iThrowsendCount)
    (blocks : ∀ other ∈ first.msgSendQueue, second.sheap.block other = first.sheap.block other)
    (fresh : buf ∉ first.msgSendQueue) (live : second.sheap.block buf = some msg)
    (stale : (first.conns msg.hdr.pConn).iCurrsequence ≠ msg.hdr.iCurrsequence) (c : ConnId) :
    ((sendThreadPass net second).conns c).security.iSendCount =
      ((sendThreadPass net first).conns c).security.iSendCount + extra c := by
  have begins : Alike extra [buf] (lane (atFront first)) (lane (atFront second)) :=
    ⟨rfl, queue, blocks, funext throwsend, counts⟩
  have front : (lane (atFront first)).Sound := ⟨sound.nodup, sound.live⟩
  have both : Alike extra [buf]
      (lane (passElements net first.msgSendQueue.length (atFront first)))
      (lane (passElements net first.msgSendQueue.length (atFront second))) ∧ _ :=
    pass_alike first.msgSendQueue.length front begins objects rfl (Nat.zero_add _)
  obtain ⟨alike, stops, outside⟩ := both
  have total : second.msgSendQueue.length = first.msgSendQueue.length + 1 := by
    rw [queue, List.length_append, List.length_singleton]
  have left : lane (sendThreadPass net first) = _ := lane_pass counted
  have right : lane (sendThreadPass net second) = _ := lane_pass (by omega)
  rw [total, pass_elements_last] at right
  have frame : forgetSend (passElements net first.msgSendQueue.length (atFront second)) =
      forgetSend (atFront second) := pass_elements_frame _
  have content : (passElements net first.msgSendQueue.length (atFront second)).sheap.block buf =
      some msg := (outside buf fresh).trans live
  generalize passElements net first.msgSendQueue.length (atFront first) = done at alike stops left
  generalize passElements net first.msgSendQueue.length (atFront second) = last
    at alike frame content right
  have iterator : last.sendPc = .pass done.msgSendQueue.length := alike.pc.trans stops
  have here : last.msgSendQueue[done.msgSendQueue.length]? = some buf := by
    have elements : last.msgSendQueue = done.msgSendQueue ++ [buf] := alike.queue
    rw [elements, List.getElem?_concat_length]
  have older : (last.conns msg.hdr.pConn).iCurrsequence ≠ msg.hdr.iCurrsequence := by
    have seq := congrArg (fun server => (server.conns msg.hdr.pConn).iCurrsequence) frame
    have same : (last.conns msg.hdr.pConn).iCurrsequence =
        (second.conns msg.hdr.pConn).iCurrsequence := seq
    rw [same, (objects msg.hdr.pConn).2]
    exact stale
  have dropped : (lane (sendElement last done.msgSendQueue.length buf (net buf).1
      (net buf).2)).iSendCount = (lane last).iSendCount := by
    have kept : (lane last).block buf = some msg := content
    rw [lane_element, Lane.element, kept]
    dsimp only
    rw [if_pos older]
    rfl
  rw [pass_round 0 iterator here, passElements] at right
  have counting := congrFun (congrArg Lane.iSendCount right) c
  exact counting.trans ((congrFun dropped c).trans ((alike.iSendCount c).trans
    (congrArg (· + extra c) (congrFun (congrArg Lane.iSendCount left) c).symm)))

end Pass

def Throttled (state : SendState) : Prop :=
  ∀ c, (state.send c).iThrowsendCount ≤ if state.occ c = none then 0 else 1

section Throttled

variable {state after : SendState}

theorem idle_throttled {count : Int} (idle : count ≤ 0) (owner : Option OccId) :
    count ≤ if owner = none then 0 else 1 := by
  split <;> omega

theorem throttled_set {c : ConnId} {part : SendPart} (throttled : Throttled state)
    (bound : part.iThrowsendCount ≤ if after.occ c = none then 0 else 1)
    (send : after.send = Function.update state.send c part)
    (occ : ∀ d, d ≠ c → after.occ d = state.occ d) : Throttled after := by
  intro d
  rw [send, Function.update_apply]
  split
  case isTrue same =>
    rw [same]
    exact bound
  case isFalse other =>
    rw [occ d other]
    exact throttled d

theorem throttled_move (throttled : Throttled state) (move : SendMove anyRules state after) :
    Throttled after := by
  cases move with
  | reset c part unowned =>
      exact throttled_set throttled (idle_throttled le_rfl _) rfl fun _ _ => rfl
  | own c unowned idle uncounted =>
      intro d
      have bound := throttled d
      have owner : (state.own c).occ d = if d = c then some state.nextOcc else state.occ d :=
        Function.update_apply _ _ _ _
      have send : (state.own c).send = state.send := rfl
      rw [owner, send]
      by_cases same : d = c
      · rw [same, uncounted]
        exact idle_throttled le_rfl _
      · rw [if_neg same]
        exact bound
  | release c =>
      exact throttled_set throttled (idle_throttled le_rfl _) rfl
        fun d other => Function.update_of_ne other _ _
  | close c opened =>
      refine throttled_set throttled ?_ rfl fun d other => Function.update_of_ne other _ _
      have bound := throttled c
      have ended : (state.close c opened).occ c = none := Function.update_self _ _ _
      rw [if_pos ended]
      dsimp only
      split at bound <;> split <;> omega
  | start pos buf msg progress armed here owner live free =>
      refine throttled_set throttled ?_ (start_send state pos buf msg progress armed)
        fun d _ => congrFun (start_occ state pos buf msg progress armed) d
      rw [start_occ, owner, if_neg live, started_throwsend]
      split <;> omega
  | write c progress armed =>
      refine throttled_set throttled ?_ (write_send state c progress armed)
        fun d _ => congrFun (write_occ state c progress armed) d
      have bound := throttled c
      rw [write_occ]
      cases progress with
      | part count | blocked => exact bound
      | done sendsize =>
          dsimp only [writtenPart]
          omega
  | uncount c =>
      refine throttled_set throttled ?_ rfl fun _ _ => rfl
      have bound := throttled c
      have same : (state.uncount c).occ = state.occ := rfl
      rw [same]
      dsimp only
      omega
  | _ => exact throttled

end Throttled

theorem reachable_throttled {cfg : Config} {server : Server}
    (reached : Reachable cfg AnyEvent server) :
    Attributed server ∧ SendSound (sendState server) ∧ Throttled (sendState server) := by
  refine reachable_send_state ?_ (fun _ _ _ => throttled_move) (fun _ _ any => any.1) ?_ reached
  · rintro server ⟨listenFds, -, -, rfl⟩ c
    exact idle_throttled le_rfl _
  · intro server act any
    apply any_permits
    intro msg now call
    subst call
    exact any.2

/-- Closing a connection that waits for recycling changes nothing that a pass reads,
and no list. -/
theorem close_waiting {cfg : Config} {server : Server} {c : ConnId}
    (settled : Settled (poolView server)) (throttled : Throttled (sendState server))
    (waits : c ∈ server.recyconnectionList) (now : Int) :
    poolView (zdClosesocketProc cfg server c now) = poolView server ∧
      ∀ d, ((zdClosesocketProc cfg server c now).conns d).send.iThrowsendCount =
        (server.conns d).send.iThrowsendCount := by
  have holds : QuarantinePool.Invariant (poolView server) [] _ := settled
  refine ⟨(zd_closesocket_proc_view cfg server c now).trans
    (QuarantinePool.retire_again holds waits), fun d => ?_⟩
  have unused : c ∉ QuarantinePool.inUse (poolView server) := by
    intro used
    exact ((QuarantinePool.mem_in_use _ c).mp used).2.2 waits
  have unowned : server.ghost.occ c = none :=
    QuarantinePool.unused_unowned (settled_stamps settled) unused
  have idle : (server.conns c).send.iThrowsendCount ≤ 0 := by
    have bound := throttled c
    have ended : (sendState server).occ c = none := unowned
    rwa [if_pos ended] at bound
  have closed := congrFun (congrArg SendState.send
    (zd_closesocket_proc_send_state cfg server c now)) d
  have send : ((zdClosesocketProc cfg server c now).conns d).send = _ := closed
  rw [send]
  dsimp only [SendState.close, SendState.setSend]
  rw [Function.update_apply]
  split
  case isTrue same =>
    have stays : ¬ ((sendState server).send c).iThrowsendCount > 0 := not_lt.mpr idle
    rw [if_neg stays, same]
    rfl
  case isFalse => rfl

/-- Nor has it an entry in the timer queue. -/
theorem close_waiting_timers {cfg : Config} {hand : List Nat} {server : Server} {c : ConnId}
    (covered : cfg.ifkickTimeCount = 1 → Covered cfg hand server) (recorded : Recorded server)
    (unowned : server.ghost.occ c = none) (now : Int) :
    (zdClosesocketProc cfg server c now).timerQueuemap = server.timerQueuemap := by
  by_cases enabled : cfg.ifkickTimeCount = 1
  · have entries : (zdClosesocketProc cfg server c now).timerQueuemap =
        (deleteFromTimerQueue server c).timerQueuemap :=
      congrArg Clock.timerQueuemap (zd_clock enabled server c now)
    rw [entries, delete_entries (covered enabled).filed c, List.filter_eq_self]
    intro entry member
    rw [Bool.not_eq_true', Bool.eq_false_iff]
    intro record
    obtain ⟨o, -, serves⟩ := (entry_tag recorded (covered enabled) member c).mp record
    rw [unowned] at serves
    cases serves
  · have ended : ∀ shut : Server, clock (endOccupancy shut c) = clock shut := fun _ => rfl
    have same : clock (zdClosesocketProc cfg server c now) = clock server := by
      unfold zdClosesocketProc
      rw [if_neg enabled, in_recy_queue_clock, drop_throwsend_clock, ended, close_if_open_clock]
    exact congrArg Clock.timerQueuemap same

/-- What the server would be like without a call shows no difference. -/
structure SameFor (c : ConnId) (after without : Server) : Prop where
  iSendCount : (after.conns c).security.iSendCount = (without.conns c).security.iSendCount
  fd : (after.conns c).fd = (without.conns c).fd
  iThrowsendCount : (after.conns c).send.iThrowsendCount = (without.conns c).send.iThrowsendCount
  iCurrsequence : (after.conns c).iCurrsequence = (without.conns c).iCurrsequence
  freeList : after.freeconnectionList = without.freeconnectionList
  recyList : after.recyconnectionList = without.recyconnectionList
  online : after.onlineUserCount = without.onlineUserCount
  timers : after.timerQueuemap = without.timerQueuemap

/-- A call of `msgSend` has no effect after the next pass of the send thread but that
its message, for which a handler allocated the next block, is freed. -/
def Harmless (net : Network) (server called : Server) (c : ConnId) : Prop :=
  SameFor c (sendThreadPass net called) (sendThreadPass net server) ∧
    (sendThreadPass net called).sheap.block server.sheap.next = none

section Harmless

variable {cfg : Config} {net : Network} {server called : Server} {msg : MsgBuf} {now : Int}

theorem pass_lists (net : Network) (server : Server) :
    poolView (sendThreadPass net server) = poolView server ∧
      (sendThreadPass net server).timerQueuemap = server.timerQueuemap := by
  have timers := congrArg Server.timerQueuemap (pass_frame net server)
  exact ⟨pool_view_of_send (pass_frame net server), timers⟩

theorem same_objects_of_view (same : poolView called = poolView server) :
    SameObjects server called := by
  intro c
  have fd := congrFun (congrArg QuarantinePool.Pool.handle same) c
  have seq := congrFun (congrArg QuarantinePool.Pool.generation same) c
  exact ⟨fd, seq⟩

theorem harmless_of_same (sound : SendSound (sendState server))
    (counts : counters called = { counters server with discarded := called.iDiscardSendPkgCount })
    (view : poolView called = poolView server)
    (timers : called.timerQueuemap = server.timerQueuemap)
    (throwsend : ∀ c,
      (called.conns c).send.iThrowsendCount = (server.conns c).send.iThrowsendCount)
    (blocks : ∀ buf ∈ server.msgSendQueue, called.sheap.block buf = server.sheap.block buf)
    (freed : called.sheap.block server.sheap.next = none) (c : ConnId) :
    Harmless net server called c := by
  have objects := same_objects_of_view view
  have laneSound := lane_sound sound
  obtain ⟨loads, outside⟩ := pass_same laneSound sound.counted counts objects throwsend blocks
  obtain ⟨calledView, calledTimers⟩ := pass_lists net called
  obtain ⟨serverView, serverTimers⟩ := pass_lists net server
  have views : poolView (sendThreadPass net called) = poolView (sendThreadPass net server) :=
    calledView.trans (view.trans serverView.symm)
  have fields := same_objects_of_view views c
  refine ⟨⟨(loads c).2, fields.1, (loads c).1, fields.2,
    congrArg QuarantinePool.Pool.free views, congrArg QuarantinePool.Pool.quarantine views,
    congrArg QuarantinePool.Pool.clients views,
    calledTimers.trans (timers.trans serverTimers.symm)⟩, ?_⟩
  exact (outside server.sheap.next fun waits => waiting_old sound waits rfl).trans freed

structure Discarded (server refused : Server) : Prop where
  counts : counters refused =
    { counters server with discarded := refused.iDiscardSendPkgCount }
  view : poolView refused = poolView server
  clock : clock refused = clock server
  send : ∀ c, (refused.conns c).send = (server.conns c).send
  blocks : ∀ buf ∈ server.msgSendQueue, refused.sheap.block buf = server.sheap.block buf
  freed : refused.sheap.block server.sheap.next = none

theorem discard_send_pkg (sound : SendSound (sendState server)) (msg : MsgBuf) :
    Discarded server (discardSendPkg (allocReply server msg) server.sheap.next) := by
  have positive := sound.exclusive.wellFormed.positive
  have freed := BlockHeap.free_block (BlockHeap.alloc server.sheap msg) server.sheap.next
    server.sheap.next
  refine ⟨rfl, rfl, rfl, fun _ => rfl, fun buf waits => ?_, ?_⟩
  · exact discard_block (sendState server) msg (waiting_old sound waits)
  · exact freed.trans (if_pos ⟨Nat.ne_of_gt positive, rfl⟩)

theorem harmless_discard {refused : Server} (sound : SendSound (sendState server))
    (discarded : Discarded server refused) (c : ConnId) : Harmless net server refused c :=
  harmless_of_same sound discarded.counts discarded.view
    (congrArg Clock.timerQueuemap discarded.clock)
    (fun d => congrArg SendPart.iThrowsendCount (discarded.send d)) discarded.blocks
    discarded.freed c

/-- A message for a connection that waits for recycling, which is closed once more. -/
theorem harmless_waiting {refused : Server} (attributed : Attributed server)
    (sound : SendSound (sendState server)) (throttled : Throttled (sendState server))
    (kept : cfg.ifkickTimeCount = 1 → Kept cfg server) (discarded : Discarded server refused)
    {c : ConnId} (waits : c ∈ server.recyconnectionList) :
    Harmless net server (zdClosesocketProc cfg refused c now) c := by
  obtain ⟨counts, view, clock, send, blocks, freed⟩ := discarded
  have unused : c ∉ QuarantinePool.inUse (poolView server) := by
    intro used
    exact ((QuarantinePool.mem_in_use _ c).mp used).2.2 waits
  have unowned : server.ghost.occ c = none :=
    QuarantinePool.unused_unowned (settled_stamps attributed.settled) unused
  have owner : refused.ghost.occ = server.ghost.occ := congrArg QuarantinePool.Pool.owner view
  have lists : refused.recyconnectionList = server.recyconnectionList :=
    congrArg QuarantinePool.Pool.quarantine view
  have settled : Settled (poolView refused) := by
    rw [view]
    exact attributed.settled
  have still : Throttled (sendState refused) := by
    intro d
    have bound := throttled d
    have occ : (sendState refused).occ d = (sendState server).occ d := congrFun owner d
    have part : (sendState refused).send d = (sendState server).send d := send d
    rw [occ, part]
    exact bound
  have closing : poolView (zdClosesocketProc cfg refused c now) = poolView refused ∧ _ :=
    close_waiting settled still (lists ▸ waits) now
  have heap := congrArg Server.sheap (forget_close_zd cfg refused c now)
  have sheap : (zdClosesocketProc cfg refused c now).sheap = refused.sheap := heap
  have timers := close_waiting_timers (fun enabled => covered_of_clock (kept enabled).covered clock
    owner) (recorded_of_clock (attributed_recorded attributed) clock owner)
    ((congrFun owner c).trans unowned) now
  refine harmless_of_same sound ?_ (closing.1.trans view)
    (timers.trans (congrArg Clock.timerQueuemap clock)) (fun d => ?_) ?_ ?_ c
  · have count := congrArg Server.iDiscardSendPkgCount (forget_close_zd cfg refused c now)
    have same : (zdClosesocketProc cfg refused c now).iDiscardSendPkgCount =
        refused.iDiscardSendPkgCount := count
    rw [counters_zd, same]
    exact counts
  · exact (closing.2 d).trans (congrArg SendPart.iThrowsendCount (send d))
  · rw [sheap]
    exact blocks
  · rw [sheap]
    exact freed

theorem retire_new {pool : QuarantinePool.Pool} {c : Nat} (absent : c ∉ pool.quarantine) :
    (QuarantinePool.retire pool c).quarantine = pool.quarantine ++ [c] := by
  have kept : (QuarantinePool.disown (QuarantinePool.shut pool c) c).quarantine =
      pool.quarantine := by
    unfold QuarantinePool.disown QuarantinePool.shut
    split <;> rfl
  rw [QuarantinePool.retire, QuarantinePool.isolate_new (by rw [kept]; exact absent)]
  dsimp only
  rw [kept]

/-- A message that is counted for a client which it is not for, and one too many for it:
the client is cut off. -/
theorem harm_closed {refused : Server} (discarded : Discarded server refused) {c : ConnId}
    (absent : c ∉ server.recyconnectionList) :
    ¬ Harmless net server (zdClosesocketProc cfg refused c now) c := by
  rintro ⟨same, -⟩
  have lists : ∀ state : Server, (sendThreadPass net state).recyconnectionList =
      state.recyconnectionList :=
    fun state => congrArg QuarantinePool.Pool.quarantine (pass_lists net state).1
  have retired := congrArg QuarantinePool.Pool.quarantine
    (zd_closesocket_proc_view cfg refused c now)
  rw [discarded.view, retire_new absent] at retired
  have longer : (zdClosesocketProc cfg refused c now).recyconnectionList =
      server.recyconnectionList ++ [c] := retired
  have equal := same.recyList
  rw [lists, lists, longer] at equal
  have size := congrArg List.length equal
  rw [List.length_append, List.length_singleton] at size
  omega

/-- A message that goes into the queue is dropped from it, but stays counted. -/
theorem harm_pushed (sound : SendSound (sendState server))
    (stale : (server.conns msg.hdr.pConn).iCurrsequence ≠ msg.hdr.iCurrsequence) :
    ¬ Harmless net server (pushSendPkg (allocReply server msg) server.sheap.next msg)
      msg.hdr.pConn := by
  rintro ⟨same, -⟩
  have counts : ∀ c, ((pushSendPkg (allocReply server msg) server.sheap.next msg).conns
      c).security.iSendCount = (server.conns c).security.iSendCount +
        if c = msg.hdr.pConn then 1 else 0 := by
    intro c
    rw [pushSendPkg, mod_conn_conns]
    split
    case isTrue here =>
      rw [here]
      rfl
    case isFalse => exact (add_zero _).symm
  have objects : SameObjects server
      (pushSendPkg (allocReply server msg) server.sheap.next msg) := by
    apply same_objects_of_view
    have frame := pool_view_of_send (forget_send_push (allocReply server msg) server.sheap.next msg)
    exact frame
  have throwsend : ∀ c, ((pushSendPkg (allocReply server msg) server.sheap.next msg).conns
      c).send.iThrowsendCount = (server.conns c).send.iThrowsendCount := by
    intro c
    have kept := mod_conn_keeps (fun p => p.send.iThrowsendCount)
      (allocReply server msg) msg.hdr.pConn c
      (fun p => { p with security.iSendCount := p.security.iSendCount + 1 }) rfl
    exact kept
  have more : ((sendThreadPass net (pushSendPkg (allocReply server msg) server.sheap.next
      msg)).conns msg.hdr.pConn).security.iSendCount = _ :=
    pass_more (lane_sound sound) sound.counted rfl rfl counts objects throwsend
      (fun buf waits => push_block (sendState server) msg (waiting_old sound waits))
      (fun waits => waiting_old sound waits rfl) (BlockHeap.alloc_block_self server.sheap msg)
      stale msg.hdr.pConn
  rw [if_pos rfl] at more
  have equal := same.iSendCount
  omega

end Harmless

def reissueActs : List Act :=
  [.epollInit (fun _ => true) 1000, .accept 0 [.ok 5] true true 1001, .close 1 1002,
    .recycle 1063, .accept 0 [.ok 6] true true 1064]

def lateReply : MsgBuf where
  hdr := { pConn := 1, iCurrsequence := 1, occ := some 0 }
  pkg := encodeHeader 8 0 0

end NgxServer.StaleReply
