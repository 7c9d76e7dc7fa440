import NgxServer.Lib.Ownership
import NgxServer.Socket
import Mathlib.Logic.Relation

/-!
# The sending half as a machine of its own

What the send queue, the pending packets, the epoll masks and the occupancies
of connections go through, whichever thread does it. `SendMove` lists the
moves with what is known when one is made; `Rules` restricts the moves that
depend on the network, so that one machine serves several families of runs.
-/

namespace NgxServer.SendMachine

open NgxServer.Comm NgxServer.State NgxServer.Socket
open BlockHeap (Heap null)

set_option autoImplicit false

structure SendState where
  send : ConnId → SendPart
  events : ConnId → BitVec 32
  kmask : ConnId → Option (BitVec 32)
  occ : ConnId → Option OccId
  nextOcc : OccId
  sheap : Heap MsgBuf
  queue : List Nat
  queueCount : Int
  sem : Nat
  pc : SendPc
  queued : List (Nat × MsgBuf)
  sends : List SendCall

def sendState (server : Server) : SendState where
  send := fun c => (server.conns c).send
  events := fun c => (server.conns c).events
  kmask := server.kmask
  occ := server.ghost.occ
  nextOcc := server.ghost.nextOcc
  sheap := server.sheap
  queue := server.msgSendQueue
  queueCount := server.iSendMsgQueueCount
  sem := server.semEventSendQueue
  pc := server.sendPc
  queued := server.ghost.queued
  sends := server.ghost.sends

/-- What one call of `sendproc` does to the packet it is given: sends a part
of it, nothing because the socket buffer is full, or ends it, because the rest
was sent or because of an error. -/
inductive Progress
  | part (count : Nat)
  | blocked
  | done (sendsize : Int)
  deriving DecidableEq, Repr

def Progress.sendsize : Progress → Int
  | .part count => count
  | .blocked => -1
  | .done sendsize => sendsize

def Progress.Fits (isendlen : Nat) : Progress → Prop
  | .part count => 1 ≤ count ∧ count < isendlen
  | .blocked => True
  | .done sendsize => sendsize = isendlen ∨ sendsize ≤ 0

def progressOf (isendlen : Nat) (sendsize : Int) : Progress :=
  if sendsize > 0 ∧ sendsize ≠ isendlen then .part sendsize.toNat
  else if sendsize = -1 then .blocked
  else .done sendsize

def wholePart (heap : Heap MsgBuf) (part : SendPart) : Bool :=
  match heap.block part.psendMemPointer with
  | none => false
  | some msg =>
      decide (part.psendMemPointer ≠ null ∧ part.psendbuf.1 = part.psendMemPointer ∧
        lenMsgHeader ≤ part.psendbuf.2 ∧ 1 ≤ part.isendlen ∧
        part.psendbuf.2 + part.isendlen = lenMsgHeader + msg.pkg.length)

namespace SendState

def setSend (state : SendState) (c : ConnId) (change : SendPart → SendPart) : SendState :=
  { state with send := Function.update state.send c (change (state.send c)) }

def setMask (state : SendState) (c : ConnId) (mask : BitVec 32) (armed : Bool) : SendState :=
  { state with
    events := Function.update state.events c mask
    kmask := if armed = true then Function.update state.kmask c (some mask) else state.kmask }

def sendCall (state : SendState) (c : ConnId) (byWriteHandler partlySent : Bool)
    (sendsize : Int) : SendCall where
  byWriteHandler := byWriteHandler
  conn := c
  occ := state.occ c
  source := (state.sheap.block (state.send c).psendbuf.1).map MsgBuf.hdr
  partlySent := partlySent
  whole := wholePart state.sheap (state.send c)
  sendsize := sendsize
  written :=
    match state.sheap.block (state.send c).psendbuf.1 with
    | none => []
    | some msg => (msg.pkg.drop ((state.send c).psendbuf.2 - lenMsgHeader)).take sendsize.toNat

def logCall (state : SendState) (c : ConnId) (byWriteHandler partlySent : Bool)
    (sendsize : Int) : SendState :=
  { state with sends := state.sends ++ [state.sendCall c byWriteHandler partlySent sendsize] }

def advance (state : SendState) (c : ConnId) (count : Nat) : SendState :=
  state.setSend c fun part =>
    { part with
      psendbuf := (part.psendbuf.1, part.psendbuf.2 + count)
      isendlen := part.isendlen - count }

def dropPending (state : SendState) (c : ConnId) (iThrowsendCount : Int) : SendState :=
  { state with sheap := BlockHeap.free state.sheap (state.send c).psendMemPointer }.setSend c
    fun part => { part with psendMemPointer := null, iThrowsendCount := iThrowsendCount }

def write (state : SendState) (c : ConnId) (progress : Progress) (armed : Bool) : SendState :=
  let tried := state.logCall c true false progress.sendsize
  match progress with
  | .part count => tried.advance c count
  | .blocked => tried
  | .done sendsize =>
      let disarmed :=
        if sendsize > 0 then tried.setMask c (tried.events c &&& ~~~epollOut) armed else tried
      { disarmed with sem := disarmed.sem + 1 }.dropPending c
        ((disarmed.send c).iThrowsendCount - 1)

def uncount (state : SendState) (c : ConnId) : SendState :=
  state.setSend c fun part => { part with iThrowsendCount := part.iThrowsendCount - 1 }

def erase (state : SendState) (pos : Nat) : SendState :=
  { state with
    queue := state.queue.eraseIdx pos
    queueCount := state.queueCount - 1 }

def begin (state : SendState) (pos buf : Nat) (msg : MsgBuf) : SendState :=
  (state.erase pos).setSend msg.hdr.pConn fun part =>
    { part with
      psendMemPointer := buf
      psendbuf := (buf, lenMsgHeader)
      isendlen := pkgLen msg.pkg }

def await (state : SendState) (c : ConnId) (armed : Bool) : SendState :=
  (state.setSend c fun part =>
      { part with iThrowsendCount := part.iThrowsendCount + 1 }).setMask c
    (state.events c ||| epollOut) armed

def start (state : SendState) (pos buf : Nat) (msg : MsgBuf) (progress : Progress)
    (armed : Bool) : SendState :=
  let c := msg.hdr.pConn
  let tried := (state.begin pos buf msg).logCall c false
    (decide ((state.send c).psendMemPointer ≠ null)) progress.sendsize
  match progress with
  | .part count => (tried.advance c count).await c armed
  | .blocked => tried.await c armed
  | .done _ => tried.dropPending c 0

def reset (state : SendState) (c : ConnId) (part : SendPart) : SendState :=
  { state with
    send := Function.update state.send c { part with iThrowsendCount := 0, psendMemPointer := null }
    events := Function.update state.events c 0 }

def own (state : SendState) (c : ConnId) : SendState :=
  { state with
    occ := Function.update state.occ c (some state.nextOcc)
    nextOcc := state.nextOcc + 1 }

def release (state : SendState) (c : ConnId) : SendState :=
  { state with occ := Function.update state.occ c none }.dropPending c 0

/-- `zdClosesocketProc`, where `opened` says whether the descriptor was open. -/
def close (state : SendState) (c : ConnId) (opened : Bool) : SendState :=
  { state with
    occ := Function.update state.occ c none
    kmask := if opened = true then Function.update state.kmask c none else state.kmask }.setSend c
    fun part =>
      { part with
        iThrowsendCount :=
          if part.iThrowsendCount > 0 then part.iThrowsendCount - 1 else part.iThrowsendCount }

def discard (state : SendState) (msg : MsgBuf) : SendState :=
  { state with sheap := BlockHeap.free (BlockHeap.alloc state.sheap msg) state.sheap.next }

def push (state : SendState) (msg : MsgBuf) : SendState :=
  { state with
    sheap := BlockHeap.alloc state.sheap msg
    queue := state.queue ++ [state.sheap.next]
    queueCount := state.queueCount + 1
    sem := state.sem + 1
    queued := state.queued ++ [(state.sheap.next, msg)] }

/-- A packet whose stamp is not current leaves the queue unsent. -/
def dropStale (state : SendState) (pos buf : Nat) : SendState :=
  { state.erase pos with sheap := BlockHeap.free state.sheap buf }

def wake (state : SendState) (interrupted : Bool) : SendState :=
  { state with pc := .woken, sem := if interrupted = true then state.sem else state.sem - 1 }

def beginPass (state : SendState) : SendState :=
  { state with pc := if state.queueCount > 0 then .pass 0 else .semWait }

end SendState

/-- What a family of runs assumes of the network. `mayStart` and `mayWrite`
are about sending on a connection that is open. -/
structure Rules where
  mayStart : Progress → Bool → Prop
  mayWrite : SendState → ConnId → Progress → Bool → Prop
  mayUncount : SendState → ConnId → Prop

structure Current (state : SendState) (pos buf : Nat) (msg : MsgBuf) : Prop where
  iterator : state.pc = .pass pos
  current : state.queue[pos]? = some buf
  content : state.sheap.block buf = some msg

inductive SendMove (rules : Rules) (state : SendState) : SendState → Prop
  | reset (c : ConnId) (part : SendPart) (unowned : state.occ c = none) :
      SendMove rules state (state.reset c part)
  | own (c : ConnId) (unowned : state.occ c = none) (idle : (state.send c).psendMemPointer = null)
      (uncounted : (state.send c).iThrowsendCount = 0) : SendMove rules state (state.own c)
  | arm (c : ConnId) (mask : BitVec 32) (armed : Bool)
      (idle : (state.send c).psendMemPointer = null) (plain : hasFlag mask epollOut = false) :
      SendMove rules state (state.setMask c mask armed)
  | release (c : ConnId) (ended : state.occ c = none ∨ (state.send c).psendMemPointer = null) :
      SendMove rules state (state.release c)
  | close (c : ConnId) (opened : Bool) (live : state.occ c ≠ none → opened = true) :
      SendMove rules state (state.close c opened)
  | discard (msg : MsgBuf) : SendMove rules state (state.discard msg)
  | push (msg : MsgBuf) (sized : Sized msg) (o : OccId) (started : o < state.nextOcc)
      (stamped : msg.hdr.occ = some o) (home : ∀ c, state.occ c = some o → c = msg.hdr.pConn) :
      SendMove rules state (state.push msg)
  | wake (interrupted : Bool) (waits : state.pc = .semWait)
      (wakes : interrupted = true ∨ state.sem > 0) : SendMove rules state (state.wake interrupted)
  | beginPass (woken : state.pc = .woken) : SendMove rules state state.beginPass
  | endPass (pos : Nat) (iterator : state.pc = .pass pos) (finished : state.queue[pos]? = none) :
      SendMove rules state { state with pc := .semWait }
  | skip (pos buf : Nat) (msg : MsgBuf) (here : Current state pos buf msg)
      (busy : (state.send msg.hdr.pConn).iThrowsendCount > 0) :
      SendMove rules state { state with pc := .pass (pos + 1) }
  | dropStale (pos buf : Nat) (msg : MsgBuf) (here : Current state pos buf msg)
      (stale : state.occ msg.hdr.pConn ≠ msg.hdr.occ) :
      SendMove rules state (state.dropStale pos buf)
  | start (pos buf : Nat) (msg : MsgBuf) (progress : Progress) (armed : Bool)
      (here : Current state pos buf msg) (owner : state.occ msg.hdr.pConn = msg.hdr.occ)
      (live : msg.hdr.occ ≠ none) (free : (state.send msg.hdr.pConn).iThrowsendCount ≤ 0)
      (fits : progress.Fits (pkgLen msg.pkg)) (may : rules.mayStart progress armed) :
      SendMove rules state (state.start pos buf msg progress armed)
  | write (c : ConnId) (progress : Progress) (armed : Bool)
      (fits : progress.Fits (state.send c).isendlen)
      (dead : state.occ c = none → progress = .done (-2))
      (may : state.occ c ≠ none → rules.mayWrite state c progress armed) :
      SendMove rules state (state.write c progress armed)
  | uncount (c : ConnId) (may : rules.mayUncount state c) :
      SendMove rules state (state.uncount c)

theorem move_mono {rules wider : Rules} {state after : SendState}
    (start : ∀ progress armed, rules.mayStart progress armed → wider.mayStart progress armed)
    (write : ∀ c progress armed, state.occ c ≠ none → rules.mayWrite state c progress armed →
      wider.mayWrite state c progress armed)
    (uncount : ∀ c, rules.mayUncount state c → wider.mayUncount state c)
    (move : SendMove rules state after) : SendMove wider state after := by
  cases move with
  | reset c part unowned => exact SendMove.reset c part unowned
  | own c unowned idle uncounted => exact SendMove.own c unowned idle uncounted
  | arm c mask armed idle plain => exact SendMove.arm c mask armed idle plain
  | release c ended => exact SendMove.release c ended
  | close c opened live => exact SendMove.close c opened live
  | discard msg => exact SendMove.discard msg
  | push msg sized o started stamped home => exact SendMove.push msg sized o started stamped home
  | wake interrupted waits wakes => exact SendMove.wake interrupted waits wakes
  | beginPass woken => exact SendMove.beginPass woken
  | endPass pos iterator finished => exact SendMove.endPass pos iterator finished
  | skip pos buf msg here busy => exact SendMove.skip pos buf msg here busy
  | dropStale pos buf msg here stale => exact SendMove.dropStale pos buf msg here stale
  | start pos buf msg progress armed here owner live free fits may =>
      exact SendMove.start pos buf msg progress armed here owner live free fits (start _ _ may)
  | write c progress armed fits dead may =>
      exact SendMove.write c progress armed fits dead fun live => write _ _ _ live (may live)
  | uncount c may => exact SendMove.uncount c (uncount c may)

def SendMoves (rules : Rules) : SendState → SendState → Prop :=
  Relation.ReflTransGen (SendMove rules)

def startedPart (part : SendPart) (buf : Nat) (msg : MsgBuf) : Progress → SendPart
  | .part count =>
      { iThrowsendCount := part.iThrowsendCount + 1
        psendMemPointer := buf
        psendbuf := (buf, lenMsgHeader + count)
        isendlen := pkgLen msg.pkg - count }
  | .blocked =>
      { iThrowsendCount := part.iThrowsendCount + 1
        psendMemPointer := buf
        psendbuf := (buf, lenMsgHeader)
        isendlen := pkgLen msg.pkg }
  | .done _ =>
      { iThrowsendCount := 0
        psendMemPointer := null
        psendbuf := (buf, lenMsgHeader)
        isendlen := pkgLen msg.pkg }

def writtenPart (part : SendPart) : Progress → SendPart
  | .part count =>
      { part with
        psendbuf := (part.psendbuf.1, part.psendbuf.2 + count)
        isendlen := part.isendlen - count }
  | .blocked => part
  | .done _ =>
      { part with psendMemPointer := null, iThrowsendCount := part.iThrowsendCount - 1 }

section StartAndWrite

variable (state : SendState) (pos buf : Nat) (msg : MsgBuf) (c : ConnId) (progress : Progress)
  (armed : Bool)

theorem start_send : (state.start pos buf msg progress armed).send =
    Function.update state.send msg.hdr.pConn
      (startedPart (state.send msg.hdr.pConn) buf msg progress) := by
  cases progress <;>
    simp [SendState.start, SendState.begin, SendState.logCall, SendState.advance,
      SendState.await, SendState.setMask, SendState.setSend, SendState.dropPending,
      SendState.erase, startedPart]

theorem write_send : (state.write c progress armed).send =
    Function.update state.send c (writtenPart (state.send c) progress) := by
  cases progress with
  | part count => rfl
  | blocked => exact (Function.update_eq_self c state.send).symm
  | done sendsize =>
      unfold SendState.write
      dsimp only
      split <;> rfl

@[simp] theorem start_occ : (state.start pos buf msg progress armed).occ = state.occ := by
  cases progress <;> rfl

@[simp] theorem write_occ : (state.write c progress armed).occ = state.occ := by
  cases progress with
  | part count => rfl
  | blocked => rfl
  | done sendsize =>
      unfold SendState.write
      dsimp only
      split <;> rfl

theorem start_sends : (state.start pos buf msg progress armed).sends =
    state.sends ++ [(state.begin pos buf msg).sendCall msg.hdr.pConn false
      (decide ((state.send msg.hdr.pConn).psendMemPointer ≠ null)) progress.sendsize] := by
  cases progress <;> rfl

theorem write_sends : (state.write c progress armed).sends =
    state.sends ++ [state.sendCall c true false progress.sendsize] := by
  cases progress with
  | part count => rfl
  | blocked => rfl
  | done sendsize =>
      unfold SendState.write
      dsimp only
      split <;> rfl

/-- The heap behind a call of `sendproc`: a packet that it ended is freed. -/
def freeEnded (heap : Heap MsgBuf) (buf : Nat) : Progress → Heap MsgBuf
  | .done _ => BlockHeap.free heap buf
  | _ => heap

theorem start_sheap : (state.start pos buf msg progress armed).sheap =
    freeEnded state.sheap buf progress := by
  cases progress <;>
    simp [SendState.start, SendState.begin, SendState.logCall, SendState.advance,
      SendState.await, SendState.setMask, SendState.setSend, SendState.dropPending,
      SendState.erase, freeEnded]

theorem write_sheap : (state.write c progress armed).sheap =
    freeEnded state.sheap (state.send c).psendMemPointer progress := by
  cases progress with
  | part count => rfl
  | blocked => rfl
  | done sendsize =>
      unfold SendState.write
      dsimp only
      split <;> rfl

theorem free_ended_block (heap : Heap MsgBuf) {buf other : Nat} (progress : Progress)
    (apart : other ≠ buf) : (freeEnded heap buf progress).block other = heap.block other := by
  cases progress with
  | part count => rfl
  | blocked => rfl
  | done sendsize => exact (BlockHeap.free_block _ _ _).trans (if_neg fun both => apart both.2)

theorem block_of_free_ended {heap : Heap MsgBuf} {buf other : Nat} {progress : Progress}
    {msg : MsgBuf} (live : (freeEnded heap buf progress).block other = some msg) :
    heap.block other = some msg := by
  cases progress with
  | part count => exact live
  | blocked => exact live
  | done sendsize => exact BlockHeap.block_of_free live

theorem free_ended_next (heap : Heap MsgBuf) (buf : Nat) (progress : Progress) :
    (freeEnded heap buf progress).next = heap.next := by
  cases progress with
  | part count => rfl
  | blocked => rfl
  | done sendsize => exact BlockHeap.free_next _ _

/-- What starting a packet leaves alone, and the queue without it. -/
theorem start_rest :
    (state.start pos buf msg progress armed).nextOcc = state.nextOcc ∧
      (state.start pos buf msg progress armed).queued = state.queued ∧
      (state.start pos buf msg progress armed).queue = state.queue.eraseIdx pos ∧
      (state.start pos buf msg progress armed).sem = state.sem ∧
      (state.start pos buf msg progress armed).pc = state.pc := by
  cases progress <;> exact ⟨rfl, rfl, rfl, rfl, rfl⟩

theorem write_rest :
    (state.write c progress armed).nextOcc = state.nextOcc ∧
      (state.write c progress armed).queued = state.queued ∧
      (state.write c progress armed).queue = state.queue ∧
      (state.write c progress armed).pc = state.pc ∧
      (state.write c progress armed).sem =
        match progress with
        | .done _ => state.sem + 1
        | _ => state.sem := by
  cases progress with
  | part count => exact ⟨rfl, rfl, rfl, rfl, rfl⟩
  | blocked => exact ⟨rfl, rfl, rfl, rfl, rfl⟩
  | done sendsize =>
      unfold SendState.write
      dsimp only
      split <;> exact ⟨rfl, rfl, rfl, rfl, rfl⟩

end StartAndWrite

/-- Where a packet can be: a slot of `m_MsgSendQueue`, or pending at the
`psendMemPointer` of a connection. -/
inductive PacketHolder
  | slot (index : Nat)
  | conn (c : ConnId)
  deriving DecidableEq, Repr

def Holds (state : SendState) : PacketHolder → Nat → Prop
  | .slot index, buf => state.queue[index]? = some buf
  | .conn c, buf => (state.send c).psendMemPointer = buf ∧ buf ≠ null

structure SendSound (state : SendState) : Prop where
  /-- no packet is in two places, and none that is in one has been freed -/
  exclusive : Ownership.Exclusive state.sheap (Holds state)
  sized : ∀ buf msg, state.sheap.block buf = some msg → Sized msg
  /-- the unsent rest of a pending packet is what `psendbuf` and `isendlen` say -/
  whole : ∀ c, (state.send c).psendMemPointer ≠ null →
    wholePart state.sheap (state.send c) = true
  counted : state.queueCount = state.queue.length

theorem whole_part_iff {heap : Heap MsgBuf} {part : SendPart} :
    wholePart heap part = true ↔
      ∃ msg, heap.block part.psendMemPointer = some msg ∧ part.psendMemPointer ≠ null ∧
        part.psendbuf.1 = part.psendMemPointer ∧ lenMsgHeader ≤ part.psendbuf.2 ∧
        1 ≤ part.isendlen ∧ part.psendbuf.2 + part.isendlen = lenMsgHeader + msg.pkg.length := by
  unfold wholePart
  split
  case h_1 gone => simp [gone]
  case h_2 msg found => simp [found]

theorem whole_part_heap {heap later : Heap MsgBuf} {part : SendPart}
    (same : later.block part.psendMemPointer = heap.block part.psendMemPointer) :
    wholePart later part = wholePart heap part := by
  unfold wholePart
  rw [same]

section Sound

variable {state : SendState}

@[simp] theorem set_send_self (state : SendState) (c : ConnId) (change : SendPart → SendPart) :
    (state.setSend c change).send c = change (state.send c) := by
  simp [SendState.setSend]

theorem set_send_ne (state : SendState) {c d : ConnId} (change : SendPart → SendPart)
    (other : d ≠ c) : (state.setSend c change).send d = state.send d := by
  simp [SendState.setSend, other]

/-- Sending state that has no new pending packet, over the same queue and heap. -/
theorem sound_of_send {after : SendState} (sound : SendSound state)
    (sheap : after.sheap = state.sheap) (queue : after.queue = state.queue)
    (queueCount : after.queueCount = state.queueCount)
    (pending : ∀ c, (after.send c).psendMemPointer ≠ null →
      (after.send c).psendMemPointer = (state.send c).psendMemPointer)
    (whole : ∀ c, (after.send c).psendMemPointer ≠ null →
      wholePart state.sheap (after.send c) = true) : SendSound after where
  exclusive := by
    rw [sheap]
    apply Ownership.exclusive_mono sound.exclusive
    intro holder buf held
    cases holder with
    | slot index =>
        have here : after.queue[index]? = some buf := held
        rwa [queue] at here
    | conn c =>
        obtain ⟨points, notNull⟩ := held
        exact ⟨(pending c (by rwa [points])).symm.trans points, notNull⟩
  sized := by
    rw [sheap]
    exact sound.sized
  whole := by
    rw [sheap]
    exact whole
  counted := by
    rw [queueCount, queue]
    exact sound.counted

/-- A change of one connection's sending state that keeps its packet whole. -/
theorem sound_set_send (sound : SendSound state) (c : ConnId) (change : SendPart → SendPart)
    (pending : (change (state.send c)).psendMemPointer ≠ null →
      (change (state.send c)).psendMemPointer = (state.send c).psendMemPointer)
    (whole : (change (state.send c)).psendMemPointer ≠ null →
      wholePart state.sheap (change (state.send c)) = true) :
    SendSound (state.setSend c change) := by
  refine sound_of_send sound rfl rfl rfl ?_ ?_
  · intro d
    by_cases same : d = c
    · subst same
      rw [set_send_self]
      exact pending
    · rw [set_send_ne state change same]
      exact fun _ => rfl
  · intro d
    by_cases same : d = c
    · subst same
      rw [set_send_self]
      exact whole
    · rw [set_send_ne state change same]
      exact sound.whole d

theorem sound_log_call (sound : SendSound state) (c : ConnId) (byWriteHandler partlySent : Bool)
    (sendsize : Int) : SendSound (state.logCall c byWriteHandler partlySent sendsize) :=
  sound_of_send sound rfl rfl rfl (fun _ _ => rfl) sound.whole

theorem sound_set_mask (sound : SendSound state) (c : ConnId) (mask : BitVec 32) (armed : Bool) :
    SendSound (state.setMask c mask armed) :=
  sound_of_send sound rfl rfl rfl (fun _ _ => rfl) sound.whole

theorem sound_advance (sound : SendSound state) (c : ConnId) (count : Nat)
    (less : count < (state.send c).isendlen) : SendSound (state.advance c count) := by
  apply sound_set_send sound c _ (fun _ => rfl)
  intro pending
  obtain ⟨msg, content, notNull, base, behind, some, total⟩ :=
    whole_part_iff.mp (sound.whole c pending)
  refine whole_part_iff.mpr ⟨msg, content, notNull, base, ?_, ?_, ?_⟩
  · dsimp only
    omega
  · dsimp only
    omega
  · dsimp only
    omega

theorem sound_await (sound : SendSound state) (c : ConnId) (armed : Bool) :
    SendSound (state.await c armed) := by
  refine sound_set_mask ?_ c _ armed
  exact sound_set_send sound c _ (fun _ => rfl) fun pending => sound.whole c pending

theorem pending_held (state : SendState) {c : ConnId}
    (pending : (state.send c).psendMemPointer ≠ null) :
    Holds state (.conn c) (state.send c).psendMemPointer := ⟨rfl, pending⟩

theorem pending_distinct (sound : SendSound state) {c d : ConnId} (other : d ≠ c)
    (pending : (state.send d).psendMemPointer ≠ null) :
    (state.send d).psendMemPointer ≠ (state.send c).psendMemPointer := by
  intro same
  have held := pending_held state pending
  have owned : Holds state (.conn c) (state.send d).psendMemPointer := ⟨same.symm, pending⟩
  cases sound.exclusive.unique _ _ _ held owned
  exact other rfl

/-- Freeing the pending packet of one connection leaves that of another. -/
theorem drop_pending_block (sound : SendSound state) {c d : ConnId} (iThrowsendCount : Int)
    (other : d ≠ c) (pending : (state.send d).psendMemPointer ≠ null) :
    (state.dropPending c iThrowsendCount).sheap.block (state.send d).psendMemPointer =
      state.sheap.block (state.send d).psendMemPointer := by
  have distinct := pending_distinct sound other pending
  exact (BlockHeap.free_block _ _ _).trans (if_neg fun both => distinct both.2)

theorem sound_drop_pending (sound : SendSound state) (c : ConnId) (iThrowsendCount : Int) :
    SendSound (state.dropPending c iThrowsendCount) := by
  by_cases pending : (state.send c).psendMemPointer = null
  · have same : state.dropPending c iThrowsendCount = state.setSend c
        (fun part => { part with psendMemPointer := null, iThrowsendCount := iThrowsendCount }) := by
      simp [SendState.dropPending, pending]
    rw [same]
    exact sound_set_send sound c _ (fun notNull => absurd rfl notNull)
      fun notNull => absurd rfl notNull
  · have kept : ∀ holder buf, Holds (state.dropPending c iThrowsendCount) holder buf →
        Holds state holder buf ∧ buf ≠ (state.send c).psendMemPointer := by
      intro holder buf held
      have before : Holds state holder buf ∧ holder ≠ .conn c := by
        cases holder with
        | slot index => exact ⟨held, nofun⟩
        | conn d =>
            obtain ⟨points, notNull⟩ := held
            by_cases same : d = c
            · subst same
              rw [SendState.dropPending, set_send_self] at points
              exact absurd points.symm notNull
            · rw [SendState.dropPending, set_send_ne _ _ same] at points
              exact ⟨⟨points, notNull⟩, fun equal => same (PacketHolder.conn.inj equal)⟩
      refine ⟨before.1, ?_⟩
      rintro rfl
      exact before.2 (sound.exclusive.unique _ _ _ before.1 (pending_held state pending))
    refine ⟨Ownership.exclusive_free sound.exclusive (pending_held state pending) kept, ?_, ?_,
      sound.counted⟩
    · intro buf msg live
      have freed : (BlockHeap.free state.sheap (state.send c).psendMemPointer).block buf =
          some msg := live
      rw [BlockHeap.free_block] at freed
      split at freed
      · cases freed
      · exact sound.sized buf msg freed
    · intro d stays
      by_cases same : d = c
      · subst same
        rw [SendState.dropPending, set_send_self] at stays
        exact absurd rfl stays
      · rw [SendState.dropPending, set_send_ne _ _ same] at stays ⊢
        exact (whole_part_heap (drop_pending_block sound iThrowsendCount same stays)).trans
          (sound.whole d stays)

/-- The slot that the element of a slot is in after an erasure. -/
def shiftSlot (pos index : Nat) : Nat := if index < pos then index else index - 1

theorem erase_idx_get (queue : List Nat) {pos index buf : Nat}
    (found : (queue.eraseIdx pos)[index]? = some buf) :
    ∃ old, queue[old]? = some buf ∧ old ≠ pos ∧ shiftSlot pos old = index := by
  rw [List.getElem?_eraseIdx] at found
  split at found
  case isTrue before =>
    exact ⟨index, found, by omega, by rw [shiftSlot, if_pos before]⟩
  case isFalse behind =>
    exact ⟨index + 1, found, by omega, by rw [shiftSlot, if_neg (by omega)]; omega⟩

theorem counted_erase {pos buf : Nat} (sound : SendSound state)
    (current : state.queue[pos]? = some buf) :
    (state.erase pos).queueCount = (state.erase pos).queue.length := by
  have inside : pos < state.queue.length := (List.getElem?_eq_some_iff.mp current).1
  have counted := sound.counted
  simp only [SendState.erase, List.length_eraseIdx_of_lt inside]
  omega

theorem sound_begin {pos buf : Nat} {msg : MsgBuf} (sound : SendSound state)
    (current : state.queue[pos]? = some buf) (content : state.sheap.block buf = some msg) :
    SendSound (state.begin pos buf msg) := by
  have held : Holds state (.slot pos) buf := current
  have notNull := Ownership.held_ne_null sound.exclusive held
  obtain ⟨size, header⟩ := sound.sized buf msg content
  refine ⟨?_, sound.sized, ?_, counted_erase sound current⟩
  · apply Ownership.exclusive_move sound.exclusive (fun holder _ =>
      match holder with
      | .slot index => if index = pos then .conn msg.hdr.pConn else .slot (shiftSlot pos index)
      | .conn c => .conn c)
    intro holder other now
    cases holder with
    | slot index =>
        obtain ⟨old, before, apart, shifted⟩ := erase_idx_get state.queue now
        exact ⟨.slot old, before, by dsimp only; rw [if_neg apart, shifted]⟩
    | conn c =>
        obtain ⟨points, present⟩ := now
        by_cases same : c = msg.hdr.pConn
        · subst same
          rw [SendState.begin, set_send_self] at points
          exact ⟨.slot pos, points ▸ held, by dsimp only; rw [if_pos rfl]⟩
        · rw [SendState.begin, set_send_ne _ _ same] at points
          exact ⟨.conn c, ⟨points, present⟩, rfl⟩
  · intro c pending
    by_cases same : c = msg.hdr.pConn
    · subst same
      rw [SendState.begin, set_send_self]
      refine whole_part_iff.mpr ⟨msg, content, notNull, rfl, Nat.le_refl _, ?_, ?_⟩
      · dsimp only [lenPkgHeader] at header ⊢
        omega
      · dsimp only
        rw [size]
    · rw [SendState.begin, set_send_ne _ _ same] at pending ⊢
      exact sound.whole c pending

theorem drop_stale_block {pos buf : Nat} (sound : SendSound state)
    (current : state.queue[pos]? = some buf) {c : ConnId}
    (pending : (state.send c).psendMemPointer ≠ null) :
    (state.dropStale pos buf).sheap.block (state.send c).psendMemPointer =
      state.sheap.block (state.send c).psendMemPointer := by
  refine (BlockHeap.free_block _ _ _).trans (if_neg ?_)
  rintro ⟨-, same⟩
  have held : Holds state (.slot pos) buf := current
  have also : Holds state (.conn c) buf := ⟨same, same ▸ pending⟩
  cases sound.exclusive.unique _ _ _ held also

theorem sound_drop_stale {pos buf : Nat} (sound : SendSound state)
    (current : state.queue[pos]? = some buf) : SendSound (state.dropStale pos buf) := by
  have held : Holds state (.slot pos) buf := current
  have freed : Ownership.Exclusive (BlockHeap.free state.sheap buf)
      fun holder other => Holds state holder other ∧ holder ≠ .slot pos := by
    apply Ownership.exclusive_free sound.exclusive held
    rintro holder other ⟨before, apart⟩
    refine ⟨before, ?_⟩
    rintro rfl
    exact apart (sound.exclusive.unique holder (.slot pos) other before held)
  refine ⟨?_, ?_, ?_, counted_erase sound current⟩
  · apply Ownership.exclusive_move freed (fun holder _ =>
      match holder with
      | .slot index => .slot (shiftSlot pos index)
      | .conn c => .conn c)
    intro holder other now
    cases holder with
    | slot index =>
        obtain ⟨old, before, apart, shifted⟩ := erase_idx_get state.queue now
        exact ⟨.slot old, ⟨before, fun same => apart (PacketHolder.slot.inj same)⟩,
          by dsimp only; rw [shifted]⟩
    | conn c => exact ⟨.conn c, ⟨now, nofun⟩, rfl⟩
  · intro other msg live
    have before : (BlockHeap.free state.sheap buf).block other = some msg := live
    rw [BlockHeap.free_block] at before
    split at before
    · cases before
    · exact sound.sized other msg before
  · intro c pending
    exact (whole_part_heap (drop_stale_block sound current pending)).trans (sound.whole c pending)

theorem waiting_old (sound : SendSound state) {buf : Nat} (waits : buf ∈ state.queue) :
    buf ≠ state.sheap.next := by
  rintro rfl
  obtain ⟨index, here⟩ := List.mem_iff_getElem?.mp waits
  exact Ownership.next_unheld sound.exclusive (.slot index) here

theorem next_not_pending (sound : SendSound state) (c : ConnId)
    (pending : (state.send c).psendMemPointer ≠ null) :
    (state.send c).psendMemPointer ≠ state.sheap.next := by
  intro same
  exact Ownership.next_unheld sound.exclusive (.conn c) ⟨same, same ▸ pending⟩

theorem discard_block (state : SendState) (msg : MsgBuf) {buf : Nat}
    (old : buf ≠ state.sheap.next) :
    (state.discard msg).sheap.block buf = state.sheap.block buf := by
  apply (BlockHeap.free_block _ _ _).trans
  rw [if_neg (fun both => old both.2), BlockHeap.alloc_block, if_neg old]

theorem push_block (state : SendState) (msg : MsgBuf) {buf : Nat}
    (old : buf ≠ state.sheap.next) :
    (state.push msg).sheap.block buf = state.sheap.block buf :=
  (BlockHeap.alloc_block _ _ _).trans (if_neg old)

theorem sound_discard (sound : SendSound state) (msg : MsgBuf) : SendSound (state.discard msg) := by
  refine ⟨Ownership.exclusive_discard sound.exclusive msg, ?_, ?_, sound.counted⟩
  · intro buf found live
    by_cases old : buf = state.sheap.next
    · subst old
      have notNull : state.sheap.next ≠ null := by
        have positive := sound.exclusive.wellFormed.positive
        omega
      have gone : (state.discard msg).sheap.block state.sheap.next = none :=
        (BlockHeap.free_block _ _ _).trans (if_pos ⟨notNull, rfl⟩)
      rw [gone] at live
      cases live
    · rw [discard_block state msg old] at live
      exact sound.sized buf found live
  · intro c pending
    exact (whole_part_heap (discard_block state msg (next_not_pending sound c pending))).trans
      (sound.whole c pending)

theorem sound_push (sound : SendSound state) {msg : MsgBuf} (sized : Sized msg) :
    SendSound (state.push msg) := by
  refine ⟨?_, ?_, ?_, ?_⟩
  · apply Ownership.exclusive_alloc sound.exclusive msg (.slot state.queue.length)
    intro holder buf held
    cases holder with
    | slot index =>
        have found : (state.queue ++ [state.sheap.next])[index]? = some buf := held
        rw [List.getElem?_append] at found
        split at found
        · exact Or.inl found
        case isFalse behind =>
          obtain ⟨first, same⟩ := List.getElem?_eq_some_iff.mp found
          have last : index = state.queue.length := by
            rw [List.length_singleton] at first
            omega
          subst last
          refine Or.inr ⟨rfl, ?_⟩
          simpa using same.symm
    | conn c => exact Or.inl held
  · intro buf found live
    have new : (BlockHeap.alloc state.sheap msg).block buf = some found := live
    rw [BlockHeap.alloc_block] at new
    split at new
    · cases new
      exact sized
    · exact sound.sized buf found new
  · intro c pending
    exact (whole_part_heap (push_block state msg (next_not_pending sound c pending))).trans
      (sound.whole c pending)
  · have counted := sound.counted
    simp only [SendState.push, List.length_append, List.length_singleton]
    omega

theorem sound_reset (sound : SendSound state) (c : ConnId) (part : SendPart) :
    SendSound (state.reset c part) := by
  refine sound_of_send sound rfl rfl rfl ?_ ?_
  · intro d pending
    by_cases same : d = c
    · subst same
      simp [SendState.reset] at pending
    · simp [SendState.reset, same]
  · intro d pending
    by_cases same : d = c
    · subst same
      simp [SendState.reset] at pending
    · simp only [SendState.reset, Function.update_of_ne same] at pending ⊢
      exact sound.whole d pending

theorem sound_release (sound : SendSound state) (c : ConnId) : SendSound (state.release c) := by
  refine sound_drop_pending ?_ c 0
  exact sound_of_send sound rfl rfl rfl (fun _ _ => rfl) sound.whole

theorem sound_close (sound : SendSound state) (c : ConnId) (opened : Bool) :
    SendSound (state.close c opened) := by
  refine sound_set_send ?_ c _ (fun _ => rfl) fun pending => sound.whole c pending
  exact sound_of_send sound rfl rfl rfl (fun _ _ => rfl) sound.whole

theorem sound_start {pos buf : Nat} {msg : MsgBuf} {progress : Progress} (sound : SendSound state)
    (here : Current state pos buf msg) (fits : progress.Fits (pkgLen msg.pkg)) (armed : Bool) :
    SendSound (state.start pos buf msg progress armed) := by
  have begun := sound_begin sound here.current here.content
  have tried := sound_log_call begun msg.hdr.pConn false
    (decide ((state.send msg.hdr.pConn).psendMemPointer ≠ null)) progress.sendsize
  cases progress with
  | part count =>
      refine sound_await (sound_advance tried msg.hdr.pConn count ?_) msg.hdr.pConn armed
      have whole : ((state.begin pos buf msg).send msg.hdr.pConn).isendlen = pkgLen msg.pkg := by
        rw [SendState.begin, set_send_self]
      exact whole ▸ fits.2
  | blocked => exact sound_await tried msg.hdr.pConn armed
  | done sendsize => exact sound_drop_pending tried msg.hdr.pConn 0

theorem sound_write {c : ConnId} {progress : Progress} (sound : SendSound state)
    (fits : progress.Fits (state.send c).isendlen) (armed : Bool) :
    SendSound (state.write c progress armed) := by
  have tried := sound_log_call sound c true false progress.sendsize
  cases progress with
  | part count => exact sound_advance tried c count fits.2
  | blocked => exact tried
  | done sendsize =>
      unfold SendState.write
      dsimp only
      refine sound_drop_pending ?_ c _
      split <;> exact sound_of_send sound rfl rfl rfl (fun _ _ => rfl) sound.whole

theorem progress_fits_le {progress : Progress} {isendlen : Nat} (fits : progress.Fits isendlen) :
    progress.sendsize ≤ isendlen := by
  cases progress with
  | part count =>
      have bounds : 1 ≤ count ∧ count < isendlen := fits
      simp only [Progress.sendsize]
      omega
  | blocked => simp only [Progress.sendsize]; omega
  | done sendsize =>
      have bounds : sendsize = isendlen ∨ sendsize ≤ 0 := fits
      simp only [Progress.sendsize]
      omega

/-- `sendproc` on a pending packet sends the next bytes of that packet. -/
theorem send_call_pending (sound : SendSound state) {c : ConnId} {msg : MsgBuf}
    (pending : (state.send c).psendMemPointer ≠ null)
    (content : state.sheap.block (state.send c).psendMemPointer = some msg)
    (byWriteHandler partlySent : Bool) {sendsize : Int}
    (bound : sendsize ≤ (state.send c).isendlen) :
    (state.sendCall c byWriteHandler partlySent sendsize).source = some msg.hdr ∧
      (state.sendCall c byWriteHandler partlySent sendsize).written =
        (msg.pkg.drop ((state.send c).psendbuf.2 - lenMsgHeader)).take sendsize.toNat ∧
      (state.sendCall c byWriteHandler partlySent sendsize).written.length = sendsize.toNat := by
  obtain ⟨found, present, -, base, behind, some, total⟩ :=
    whole_part_iff.mp (sound.whole c pending)
  rw [content] at present
  cases present
  have written : (state.sendCall c byWriteHandler partlySent sendsize).written =
      (msg.pkg.drop ((state.send c).psendbuf.2 - lenMsgHeader)).take sendsize.toNat := by
    simp only [SendState.sendCall, base, content]
  refine ⟨?_, written, ?_⟩
  · simp only [SendState.sendCall, base, content, Option.map_some]
  · rw [written, List.length_take, List.length_drop]
    omega

theorem sound_move {rules : Rules} {after : SendState} (sound : SendSound state)
    (move : SendMove rules state after) : SendSound after := by
  cases move with
  | reset c part => exact sound_reset sound c part
  | own c | wake interrupted | beginPass | endPass pos | skip pos buf msg =>
      exact sound_of_send sound rfl rfl rfl (fun _ _ => rfl) sound.whole
  | arm c mask armed => exact sound_set_mask sound c mask armed
  | release c => exact sound_release sound c
  | close c opened => exact sound_close sound c opened
  | discard msg => exact sound_discard sound msg
  | push msg sized => exact sound_push sound sized
  | dropStale pos buf msg here => exact sound_drop_stale sound here.current
  | start pos buf msg progress armed here owner live free fits =>
      exact sound_start sound here fits armed
  | write c progress armed fits => exact sound_write sound fits armed
  | uncount c => exact sound_set_send sound c _ (fun _ => rfl) fun pending => sound.whole c pending

/-- What every move keeps of a sound state, a sequence of moves keeps. -/
theorem moves_preserve {rules : Rules} {invariant : SendState → Prop}
    (preserved : ∀ before after, SendSound before → invariant before →
      SendMove rules before after → invariant after)
    {after : SendState} (sound : SendSound state) (holds : invariant state)
    (moves : SendMoves rules state after) : SendSound after ∧ invariant after := by
  induction moves with
  | refl => exact ⟨sound, holds⟩
  | tail _ move ih => exact ⟨sound_move ih.1 move, preserved _ _ ih.1 ih.2 move⟩

end Sound

end NgxServer.SendMachine
