import NgxServer.Lib.DeliveryLedger
import NgxServer.SendFraming

/-!
# Replies are delivered once, whole, and are never stranded

While sends make progress or find the socket buffer full and masks are
registered, every packet that `msgSend` queued for an open connection is
waiting, pending or was written as a whole, once; a pending packet has its
`EPOLLOUT` registered, and a waiting one that nothing else holds up has a
wake-up of the send thread on its way.
-/

namespace NgxServer.Delivery

open NgxServer.Comm NgxServer.State NgxServer.Socket NgxServer.Request NgxServer.Accept
open NgxServer.System NgxServer.PoolRefinement NgxServer.Occupancy NgxServer.SendMachine
open NgxServer.SendRefinement NgxServer.SendFraming
open BlockHeap (Heap null)
open DeliveryLedger (Ledger Balanced underwayItems sentPart)

set_option autoImplicit false

/-- A call of `send` returns what it sent, `EAGAIN`, or `EINTR` and is made
again. -/
def Normal : SendOutcome → Bool
  | .sent count => decide (1 ≤ count)
  | .eagain => true
  | .eintr next => Normal next
  | _ => false

def watchesOut : Option (BitVec 32) → Bool
  | none => false
  | some mask => hasFlag mask epollOut

/-- Disciplined steps with packets as the server builds them, sends that do not
fail and `epoll_ctl` calls that succeed. An event with `EPOLLOUT` has no error
or hang-up bit and is for a connection whose mask has `EPOLLOUT`. -/
def Smooth (server : Server) (act : Act) : Prop :=
  Disciplined server act ∧
    match act with
    | .msgSend msg _ => Sized msg
    | .event c revents _ send ctlOk _ _ _ =>
        hasFlag revents epollOut = true →
          hasFlag revents (epollErr ||| epollHup ||| epollRdhup) = false ∧
            watchesOut (server.kmask c) = true ∧ Normal send = true ∧ ctlOk = true
    | .element outcome ctlOk => Normal outcome = true ∧ ctlOk = true
    | _ => True

instance (server : Server) : DecidablePred (Smooth server) :=
  decidableWith server (fun _ _ => inferInstanceAs (Decidable (Sized _)))
    (fun _ _ _ _ _ _ _ _ => inferInstanceAs (Decidable (_ → _ ∧ _ ∧ _ ∧ _)))
    (fun _ _ => inferInstanceAs (Decidable (_ ∧ _)))
    fun act inner => by cases act <;> first | exact trivial | exact inner.elim

def SmoothProgress (progress : Progress) : Prop :=
  ∀ sendsize, progress = .done sendsize → sendsize > 0

def smoothRules : Rules where
  mayStart := fun progress armed => SmoothProgress progress ∧ armed = true
  mayWrite := fun state c progress armed =>
    watchesOut (state.kmask c) = true ∧ SmoothProgress progress ∧ armed = true
  mayUncount := fun _ _ => False

def Armed (state : SendState) : Prop :=
  ∀ c, watchesOut (state.kmask c) = true ↔
    state.occ c ≠ none ∧ (state.send c).psendMemPointer ≠ null

theorem watches_none : watchesOut none = false := rfl

theorem watches_some (mask : BitVec 32) : watchesOut (some mask) = hasFlag mask epollOut := rfl

theorem watches_set (mask : BitVec 32) : watchesOut (some (mask ||| epollOut)) = true := by
  have absorbed : (mask ||| epollOut) &&& epollOut = epollOut := by
    ext index
    simp only [BitVec.getElem_and, BitVec.getElem_or]
    cases mask[index] <;> cases epollOut[index] <;> rfl
  simp only [watchesOut, hasFlag, absorbed]
  decide

theorem watches_cleared (mask : BitVec 32) :
    watchesOut (some (mask &&& ~~~epollOut)) = false := by
  have cleared : (mask &&& ~~~epollOut) &&& epollOut = 0 := by
    ext index
    simp only [BitVec.getElem_and, BitVec.getElem_not]
    cases mask[index] <;> cases epollOut[index] <;> simp
  simp only [watchesOut, hasFlag, cleared]
  decide

section Moves

variable {state after : SendState}

theorem start_watches {pos buf : Nat} {msg : MsgBuf} (progress : Progress) (c : ConnId) :
    watchesOut ((state.start pos buf msg progress true).kmask c) =
      match progress with
      | .done _ => watchesOut (state.kmask c)
      | _ => if c = msg.hdr.pConn then true else watchesOut (state.kmask c) := by
  cases progress with
  | done sendsize => rfl
  | part count | blocked =>
      by_cases same : c = msg.hdr.pConn
      · subst same
        rw [if_pos rfl]
        have registered := watches_set (state.events msg.hdr.pConn)
        simpa [SendState.start, SendState.await, SendState.setMask, SendState.advance,
          SendState.setSend, SendState.begin, SendState.erase, SendState.logCall] using registered
      · rw [if_neg same]
        simp [SendState.start, SendState.await, SendState.setMask, SendState.advance,
          SendState.setSend, SendState.begin, SendState.erase, SendState.logCall, same]

theorem write_watches (progress : Progress) (c d : ConnId) :
    watchesOut ((state.write c progress true).kmask d) =
      match progress with
      | .done sendsize =>
          if sendsize > 0 ∧ d = c then false else watchesOut (state.kmask d)
      | _ => watchesOut (state.kmask d) := by
  cases progress with
  | part count => rfl
  | blocked => rfl
  | done sendsize =>
      unfold SendState.write
      dsimp only
      by_cases sent : sendsize > 0
      · rw [if_pos sent]
        by_cases same : d = c
        · subst same
          rw [if_pos ⟨sent, rfl⟩]
          have unregistered := watches_cleared (state.events d)
          simpa [SendState.dropPending, SendState.setSend, SendState.setMask,
            SendState.logCall] using unregistered
        · rw [if_neg (fun both => same both.2)]
          simp [SendState.dropPending, SendState.setSend, SendState.setMask, SendState.logCall,
            same]
      · rw [if_neg sent, if_neg (fun both => sent both.1)]
        rfl

theorem armed_of_same (armed : Armed state) (kmask : after.kmask = state.kmask)
    (same : ∀ c, after.occ c ≠ none ∧ (after.send c).psendMemPointer ≠ null ↔
      state.occ c ≠ none ∧ (state.send c).psendMemPointer ≠ null) : Armed after := by
  intro c
  rw [kmask, same]
  exact armed c

theorem armed_start {pos buf : Nat} {msg : MsgBuf} {progress : Progress} (armed : Armed state)
    (framed : Framed state) (sound : SendSound state) (here : Current state pos buf msg)
    (live : state.occ msg.hdr.pConn ≠ none)
    (free : (state.send msg.hdr.pConn).iThrowsendCount ≤ 0) :
    Armed (state.start pos buf msg progress true) := by
  have held : Holds state (.slot pos) buf := here.current
  have notNull := Ownership.held_ne_null sound.exclusive held
  have idle : (state.send msg.hdr.pConn).psendMemPointer = null := by
    rcases framed.steady _ live with ⟨-, idle⟩ | ⟨one, -⟩
    · exact idle
    · omega
  intro c
  rw [start_watches, start_occ, start_send]
  by_cases same : c = msg.hdr.pConn
  · subst same
    rw [Function.update_self]
    cases progress with
    | part count | blocked => simp [startedPart, live, notNull]
    | done sendsize =>
        have before := armed msg.hdr.pConn
        simpa [startedPart, idle] using before
  · rw [Function.update_of_ne same]
    cases progress with
    | part count | blocked =>
        dsimp only
        rw [if_neg same]
        exact armed c
    | done sendsize => exact armed c

theorem armed_write {c : ConnId} {progress : Progress} (armed : Armed state)
    (dead : state.occ c = none → progress = .done (-2))
    (may : state.occ c ≠ none → SmoothProgress progress) :
    Armed (state.write c progress true) := by
  intro d
  rw [write_watches, write_occ, write_send]
  by_cases same : d = c
  · subst same
    rw [Function.update_self]
    cases progress with
    | part count | blocked => exact armed d
    | done sendsize =>
        by_cases live : state.occ d = none
        · cases dead live
          have before := armed d
          simpa [live] using before
        · have positive := may live sendsize rfl
          simp [positive, writtenPart]
  · rw [Function.update_of_ne same]
    cases progress with
    | part count | blocked => exact armed d
    | done sendsize =>
        dsimp only
        rw [if_neg (fun both => same both.2)]
        exact armed d

theorem write_armed {c : ConnId} {progress : Progress} {registered : Bool}
    (dead : state.occ c = none → progress = .done (-2))
    (may : state.occ c ≠ none → registered = true) :
    state.write c progress registered = state.write c progress true := by
  by_cases live : state.occ c = none
  · rw [dead live]
    rfl
  · rw [may live]

theorem armed_move (sound : SendSound state) (framed : Framed state) (armed : Armed state)
    (move : SendMove smoothRules state after) : Armed after := by
  have unwatched : ∀ c, state.occ c = none ∨ (state.send c).psendMemPointer = null →
      watchesOut (state.kmask c) = false := by
    intro c reason
    rw [Bool.eq_false_iff]
    intro watches
    obtain ⟨live, pending⟩ := (armed c).mp watches
    exact reason.elim live pending
  cases move with
  | reset c part unowned =>
      refine armed_of_same armed rfl fun d => ?_
      by_cases same : d = c
      · subst same
        simp [SendState.reset, unowned]
      · simp [SendState.reset, same]
  | own c unowned idle =>
      intro d
      by_cases same : d = c
      · subst same
        simp [SendState.own, idle, unwatched d (Or.inr idle)]
      · simpa [SendState.own, same] using armed d
  | arm c mask registered idle plain =>
      intro d
      by_cases same : d = c
      · subst same
        have still := unwatched d (Or.inr idle)
        cases registered <;> simp [SendState.setMask, watches_some, plain, idle, still]
      · have before := armed d
        cases registered <;> simpa [SendState.setMask, same] using before
  | release c ended =>
      refine armed_of_same armed rfl fun d => ?_
      by_cases same : d = c
      · subst same
        have never := unwatched d ended
        rw [Bool.eq_false_iff, Ne, armed d] at never
        simp [SendState.release, SendState.dropPending, SendState.setSend, never]
      · simp [SendState.release, SendState.dropPending, SendState.setSend, same]
  | close c opened live =>
      intro d
      by_cases same : d = c
      · subst same
        cases opened with
        | true => simp [SendState.close, SendState.setSend, watches_none]
        | false =>
            have gone : state.occ d = none := by
              by_contra serves
              cases live serves
            simp [SendState.close, SendState.setSend, unwatched d (Or.inl gone)]
      · have before := armed d
        cases opened <;> simpa [SendState.close, SendState.setSend, same] using before
  | discard msg | push msg | wake interrupted | beginPass | endPass pos | skip pos buf msg
  | dropStale pos buf msg => exact armed_of_same armed rfl fun _ => Iff.rfl
  | start pos buf msg progress registered here owner live free fits may =>
      rw [may.2]
      exact armed_start armed framed sound here (by rwa [owner]) free
  | write c progress registered fits dead may =>
      rw [write_armed dead fun live => (may live).2.2]
      exact armed_write armed dead fun live => (may live).2.1
  | uncount c may => exact may.elim

/-- Where masks are registered, the event loop reaches the `EPOLLOUT` branch
only as `SendFraming` asks. -/
theorem framing_move (armed : Armed state) (move : SendMove smoothRules state after) :
    SendMove framingRules state after := by
  have write : ∀ c progress registered, state.occ c ≠ none →
      smoothRules.mayWrite state c progress registered →
      framingRules.mayWrite state c progress registered :=
    fun c _ _ _ may => ((armed c).mp may.1).2
  have uncount : ∀ c, smoothRules.mayUncount state c → framingRules.mayUncount state c :=
    fun _ may => may.elim
  exact move_mono (fun _ _ _ => trivial) write uncount move

end Moves

/-- Occupancies and packets are told apart: a number is given to one
occupancy, an address to one packet, and a packet belongs to the connection of
its occupancy. -/
structure Named (state : SendState) : Prop where
  owner_lt : ∀ c o, state.occ c = some o → o < state.nextOcc
  owner_once : ∀ c d o, state.occ c = some o → state.occ d = some o → c = d
  queued_lt : ∀ entry ∈ state.queued, ∃ o < state.nextOcc, entry.2.hdr.occ = some o
  queued_home : ∀ entry ∈ state.queued, ∀ c o, state.occ c = some o →
    entry.2.hdr.occ = some o → c = entry.2.hdr.pConn
  queued_old : ∀ entry ∈ state.queued, entry.1 < state.sheap.next
  queued_once : (state.queued.map Prod.fst).Nodup
  waiting_queued : ∀ buf ∈ state.queue, ∀ msg, state.sheap.block buf = some msg →
    (buf, msg) ∈ state.queued
  calls_lt : ∀ call ∈ state.sends, ∀ o, call.occ = some o → o < state.nextOcc

section Moves

variable {state after : SendState}

theorem named_of_quiet (named : Named state) (nextOcc : after.nextOcc = state.nextOcc)
    (queued : after.queued = state.queued) (next : state.sheap.next ≤ after.sheap.next)
    (occ : ∀ c o, after.occ c = some o → state.occ c = some o)
    (waiting : ∀ buf ∈ after.queue, buf ∈ state.queue)
    (content : ∀ buf ∈ after.queue, ∀ msg, after.sheap.block buf = some msg →
      state.sheap.block buf = some msg)
    (sends : ∀ call ∈ after.sends, call ∈ state.sends ∨ ∃ c, call.occ = state.occ c) :
    Named after where
  owner_lt := fun c o serves => nextOcc ▸ named.owner_lt c o (occ c o serves)
  owner_once := fun c d o left right => named.owner_once c d o (occ c o left) (occ d o right)
  queued_lt := by
    rw [queued, nextOcc]
    exact named.queued_lt
  queued_home := by
    rw [queued]
    exact fun entry member c o serves => named.queued_home entry member c o (occ c o serves)
  queued_old := by
    rw [queued]
    exact fun entry member => Nat.lt_of_lt_of_le (named.queued_old entry member) next
  queued_once := by
    rw [queued]
    exact named.queued_once
  waiting_queued := by
    rw [queued]
    exact fun buf member msg live =>
      named.waiting_queued buf (waiting buf member) msg (content buf member msg live)
  calls_lt := by
    rw [nextOcc]
    intro call member o serves
    rcases sends call member with older | ⟨c, now⟩
    · exact named.calls_lt call older o serves
    · exact named.owner_lt c o (now.symm.trans serves)

theorem named_own {c : ConnId} (named : Named state) : Named (state.own c) where
  owner_lt := by
    intro d o serves
    by_cases same : d = c
    · subst same
      simp only [SendState.own, Function.update_self] at serves
      cases serves
      exact Nat.lt_succ_self _
    · simp only [SendState.own, Function.update_of_ne same] at serves
      exact Nat.lt_succ_of_lt (named.owner_lt d o serves)
  owner_once := by
    have fresh : ∀ d, state.occ d ≠ some state.nextOcc :=
      fun d serves => Nat.lt_irrefl _ (named.owner_lt d _ serves)
    intro d e o left right
    simp only [SendState.own, Function.update_apply] at left right
    split_ifs at left right with isLeft isRight isRight
    · rw [isLeft, isRight]
    · cases left
      exact absurd right (fresh e)
    · cases right
      exact absurd left (fresh d)
    · exact named.owner_once d e o left right
  queued_lt := by
    intro entry member
    obtain ⟨o, started, stamped⟩ := named.queued_lt entry member
    exact ⟨o, Nat.lt_succ_of_lt started, stamped⟩
  queued_home := by
    intro entry member d o serves stamped
    obtain ⟨older, started, sameStamp⟩ := named.queued_lt entry member
    rw [stamped] at sameStamp
    cases sameStamp
    simp only [SendState.own, Function.update_apply] at serves
    split_ifs at serves with same
    · cases serves
      exact absurd started (Nat.lt_irrefl _)
    · exact named.queued_home entry member d o serves stamped
  queued_old := named.queued_old
  queued_once := named.queued_once
  waiting_queued := named.waiting_queued
  calls_lt := fun call member o serves => Nat.lt_succ_of_lt (named.calls_lt call member o serves)

theorem named_push {msg : MsgBuf} {o : OccId} (named : Named state) (sound : SendSound state)
    (started : o < state.nextOcc) (stamped : msg.hdr.occ = some o)
    (home : ∀ c, state.occ c = some o → c = msg.hdr.pConn) : Named (state.push msg) where
  owner_lt := named.owner_lt
  owner_once := named.owner_once
  queued_lt := by
    intro entry member
    rcases List.mem_append.mp member with older | new
    · exact named.queued_lt entry older
    · rw [List.mem_singleton.mp new]
      exact ⟨o, started, stamped⟩
  queued_home := by
    intro entry member c p serves entryOcc
    rcases List.mem_append.mp member with older | new
    · exact named.queued_home entry older c p serves entryOcc
    · rw [List.mem_singleton.mp new] at entryOcc ⊢
      rw [stamped] at entryOcc
      cases entryOcc
      exact home c serves
  queued_old := by
    intro entry member
    rcases List.mem_append.mp member with older | new
    · exact Nat.lt_succ_of_lt (named.queued_old entry older)
    · rw [List.mem_singleton.mp new]
      exact Nat.lt_succ_self _
  queued_once := by
    simp only [SendState.push, List.map_append, List.map_cons, List.map_nil]
    refine List.nodup_append'.mpr ⟨named.queued_once, List.nodup_singleton _, ?_⟩
    intro buf older new
    obtain ⟨entry, member, same⟩ := List.mem_map.mp older
    rw [List.mem_singleton.mp new] at same
    exact Nat.lt_irrefl _ (same ▸ named.queued_old entry member)
  waiting_queued := by
    intro buf member found live
    rcases List.mem_append.mp member with older | new
    · have old : buf ≠ state.sheap.next := by
        rintro rfl
        obtain ⟨index, here⟩ := List.mem_iff_getElem?.mp older
        exact Ownership.next_unheld sound.exclusive (.slot index) here
      rw [push_block state msg old] at live
      exact List.mem_append_left _ (named.waiting_queued buf older found live)
    · rw [List.mem_singleton.mp new] at live ⊢
      have stored : (state.push msg).sheap.block state.sheap.next = some msg :=
        BlockHeap.alloc_block_self _ _
      rw [stored] at live
      cases live
      exact List.mem_append_right _ (List.mem_singleton_self _)
  calls_lt := named.calls_lt

theorem named_move {rules : Rules} (sound : SendSound state) (named : Named state)
    (move : SendMove rules state after) : Named after := by
  cases move with
  | reset c part | arm c mask registered | wake interrupted | beginPass | endPass pos
  | skip pos buf msg | uncount c =>
      exact named_of_quiet named rfl rfl (Nat.le_refl _) (fun _ _ => id) (fun _ => id)
        (fun _ _ _ => id) fun _ => Or.inl
  | own c => exact named_own named
  | release c =>
      exact named_of_quiet named rfl rfl (Nat.le_of_eq (BlockHeap.free_next _ _).symm)
        (fun _ _ serves => (serves_elsewhere serves).2) (fun _ => id)
        (fun _ _ _ => BlockHeap.block_of_free) fun _ => Or.inl
  | close c =>
      exact named_of_quiet named rfl rfl (Nat.le_refl _)
        (fun _ _ serves => (serves_elsewhere serves).2) (fun _ => id) (fun _ _ _ => id)
        fun _ => Or.inl
  | discard msg =>
      have next : state.sheap.next ≤ (state.discard msg).sheap.next := by
        simp only [SendState.discard, BlockHeap.free_next, BlockHeap.alloc_next]
        omega
      refine named_of_quiet named rfl rfl next (fun _ _ => id) (fun _ => id) ?_ fun _ => Or.inl
      intro buf waits found live
      rwa [discard_block state msg (waiting_old sound waits)] at live
  | push msg sized o started stamped home => exact named_push named sound started stamped home
  | dropStale pos buf msg =>
      exact named_of_quiet named rfl rfl (Nat.le_of_eq (BlockHeap.free_next _ _).symm)
        (fun _ _ => id) (fun _ => List.mem_of_mem_eraseIdx)
        (fun _ _ _ => BlockHeap.block_of_free) fun _ => Or.inl
  | start pos buf msg progress registered =>
      obtain ⟨nextOcc, queued, queue, -, -⟩ := start_rest state pos buf msg progress registered
      have occ := start_occ state pos buf msg progress registered
      have sheap := start_sheap state pos buf msg progress registered
      refine named_of_quiet named nextOcc queued ?_ (fun c o => by rw [occ]; exact id)
        (fun _ => by rw [queue]; exact List.mem_of_mem_eraseIdx)
        (fun _ _ _ => by rw [sheap]; exact block_of_free_ended) ?_
      · rw [sheap, free_ended_next]
      · rw [start_sends]
        intro call member
        refine (List.mem_append.mp member).imp_right fun new => ⟨msg.hdr.pConn, ?_⟩
        rw [List.mem_singleton.mp new]
        rfl
  | write c progress registered =>
      obtain ⟨nextOcc, queued, queue, -, -⟩ := write_rest state c progress registered
      have occ := write_occ state c progress registered
      have sheap := write_sheap state c progress registered
      refine named_of_quiet named nextOcc queued ?_ (fun d o => by rw [occ]; exact id)
        (fun _ => by rw [queue]; exact id)
        (fun _ _ _ => by rw [sheap]; exact block_of_free_ended) ?_
      · rw [sheap, free_ended_next]
      · rw [write_sends]
        intro call member
        refine (List.mem_append.mp member).imp_right fun new => ⟨c, ?_⟩
        rw [List.mem_singleton.mp new]
        rfl

end Moves

def Attends (state : SendState) (index : Nat) : Prop :=
  state.sem > 0 ∨ state.pc = .woken ∨ ∃ pos ≤ index, state.pc = .pass pos

structure Sendable (state : SendState) (index buf : Nat) (msg : MsgBuf) : Prop where
  waits : state.queue[index]? = some buf
  content : state.sheap.block buf = some msg
  owner : state.occ msg.hdr.pConn = msg.hdr.occ
  live : msg.hdr.occ ≠ none
  idle : (state.send msg.hdr.pConn).psendMemPointer = null

def Unstranded (state : SendState) : Prop :=
  ∀ index buf msg, Sendable state index buf msg → Attends state index

section Moves

variable {state after : SendState}

theorem unstranded_of_quiet (unstranded : Unstranded state)
    (attends : ∀ index, Attends state index → Attends after index)
    (sendable : ∀ index buf msg, Sendable after index buf msg → Sendable state index buf msg) :
    Unstranded after :=
  fun index buf msg now => attends index (unstranded index buf msg (sendable index buf msg now))

/-- The element under the iterator leaves the queue: what stands behind it is
still ahead of the iterator. -/
theorem unstranded_of_erase {pos : Nat} (unstranded : Unstranded state)
    (iterator : state.pc = .pass pos) (sem : after.sem = state.sem) (pc : after.pc = state.pc)
    (queue : after.queue = state.queue.eraseIdx pos)
    (sendable : ∀ old index buf msg, Sendable after index buf msg →
      state.queue[old]? = some buf → Sendable state old buf msg) : Unstranded after := by
  intro index buf msg now
  by_cases ahead : pos ≤ index
  · exact Or.inr (Or.inr ⟨pos, ahead, pc.trans iterator⟩)
  · have waits := now.waits
    rw [queue, List.getElem?_eraseIdx, if_pos (by omega)] at waits
    rcases unstranded index buf msg (sendable index index buf msg now waits) with
      posted | woken | ⟨at_, before, here⟩
    · exact Or.inl (sem ▸ posted)
    · rw [iterator] at woken
      cases woken
    · rw [iterator] at here
      cases here
      exact absurd before ahead

theorem unstranded_begin_pass (sound : SendSound state) : Unstranded state.beginPass := by
  intro index buf msg now
  have waits : state.queue[index]? = some buf := now.waits
  have inside : index < state.queue.length := (List.getElem?_eq_some_iff.mp waits).1
  have counted := sound.counted
  have positive : state.queueCount > 0 := by omega
  exact Or.inr (Or.inr ⟨0, Nat.zero_le _, if_pos positive⟩)

theorem unstranded_end_pass {pos : Nat} (unstranded : Unstranded state)
    (iterator : state.pc = .pass pos) (finished : state.queue[pos]? = none) :
    Unstranded { state with pc := .semWait } := by
  intro index buf msg now
  have inside : index < state.queue.length := (List.getElem?_eq_some_iff.mp now.waits).1
  have behind : state.queue.length ≤ pos := List.getElem?_eq_none_iff.mp finished
  rcases unstranded index buf msg ⟨now.waits, now.content, now.owner, now.live, now.idle⟩ with
    posted | woken | ⟨at_, before, here⟩
  · exact Or.inl posted
  · rw [iterator] at woken
    cases woken
  · rw [iterator] at here
    cases here
    omega

theorem unstranded_skip {pos buf : Nat} {msg : MsgBuf} (unstranded : Unstranded state)
    (framed : Framed state) (here : Current state pos buf msg)
    (busy : (state.send msg.hdr.pConn).iThrowsendCount > 0) :
    Unstranded { state with pc := .pass (pos + 1) } := by
  intro index other found now
  have before : Sendable state index other found :=
    ⟨now.waits, now.content, now.owner, now.live, now.idle⟩
  rcases unstranded index other found before with posted | woken | ⟨at_, ahead, iterator⟩
  · exact Or.inl posted
  · rw [here.iterator] at woken
    cases woken
  · rw [here.iterator] at iterator
    cases iterator
    by_cases same : index = pos
    · subst same
      have equal := before.waits
      rw [here.current] at equal
      cases equal
      have content := before.content
      rw [here.content] at content
      cases content
      have serves : state.occ msg.hdr.pConn ≠ none := by
        rw [before.owner]
        exact before.live
      rcases framed.steady _ serves with ⟨zero, -⟩ | ⟨-, pending⟩
      · omega
      · exact absurd before.idle pending
    · exact Or.inr (Or.inr ⟨pos + 1, by omega, rfl⟩)

theorem unstranded_start {pos buf : Nat} {msg : MsgBuf} {progress : Progress}
    (unstranded : Unstranded state) (framed : Framed state) (here : Current state pos buf msg)
    (registered : Bool) (live : state.occ msg.hdr.pConn ≠ none)
    (free : (state.send msg.hdr.pConn).iThrowsendCount ≤ 0) :
    Unstranded (state.start pos buf msg progress registered) := by
  have idle : (state.send msg.hdr.pConn).psendMemPointer = null := by
    rcases framed.steady _ live with ⟨-, idle⟩ | ⟨one, -⟩
    · exact idle
    · omega
  obtain ⟨-, -, queue, sem, pc⟩ := start_rest state pos buf msg progress registered
  apply unstranded_of_erase unstranded here.iterator sem pc queue
  rintro old index other found ⟨-, content, owner, open_, isIdle⟩ waits
  rw [start_sheap] at content
  rw [start_occ] at owner
  rw [start_send] at isIdle
  refine ⟨waits, block_of_free_ended content, owner, open_, ?_⟩
  by_cases same : found.hdr.pConn = msg.hdr.pConn
  · rw [same]
    exact idle
  · rwa [Function.update_of_ne same] at isIdle

theorem unstranded_write {c : ConnId} {progress : Progress} (unstranded : Unstranded state)
    (registered : Bool) : Unstranded (state.write c progress registered) := by
  obtain ⟨-, -, queue, pc, sem⟩ := write_rest state c progress registered
  have kept : (∀ d, (writtenPart (state.send d) progress).psendMemPointer =
      (state.send d).psendMemPointer) → (state.write c progress registered).sem = state.sem →
      Unstranded (state.write c progress registered) := by
    intro pointer same
    refine unstranded_of_quiet unstranded ?_ ?_
    · intro index attends
      rwa [Attends, same, pc]
    · rintro index buf msg ⟨waits, content, owner, live, idle⟩
      rw [queue] at waits
      rw [write_sheap] at content
      rw [write_occ] at owner
      rw [write_send] at idle
      refine ⟨waits, block_of_free_ended content, owner, live, ?_⟩
      by_cases self : msg.hdr.pConn = c
      · rw [self, Function.update_self, pointer] at idle
        rw [self]
        exact idle
      · rwa [Function.update_of_ne self] at idle
  cases progress with
  | part count => exact kept (fun _ => rfl) sem
  | blocked => exact kept (fun _ => rfl) sem
  | done sendsize =>
      intro index buf msg now
      exact Or.inl (by rw [sem]; exact Nat.succ_pos _)

theorem unstranded_move (sound : SendSound state) (framed : Framed state) (named : Named state)
    (unstranded : Unstranded state) (move : SendMove smoothRules state after) :
    Unstranded after := by
  cases move with
  | reset c part unowned =>
      refine unstranded_of_quiet unstranded (fun _ => id) ?_
      rintro index buf msg ⟨waits, content, owner, live, idle⟩
      have other : msg.hdr.pConn ≠ c := by
        rintro rfl
        exact live (owner.symm.trans unowned)
      simp only [SendState.reset, Function.update_of_ne other] at idle
      exact ⟨waits, content, owner, live, idle⟩
  | own c unowned =>
      refine unstranded_of_quiet unstranded (fun _ => id) ?_
      rintro index buf msg ⟨waits, content, owner, live, idle⟩
      refine ⟨waits, content, ?_, live, idle⟩
      by_cases same : msg.hdr.pConn = c
      · obtain ⟨o, started, stamped⟩ := named.queued_lt _
          (named.waiting_queued buf (List.mem_of_getElem? waits) msg content)
        simp only [SendState.own, same, Function.update_self] at owner
        cases owner.trans stamped
        exact absurd started (Nat.lt_irrefl _)
      · simpa only [SendState.own, Function.update_of_ne same] using owner
  | arm c mask registered =>
      exact unstranded_of_quiet unstranded (fun _ => id) fun _ _ _ now =>
        ⟨now.waits, now.content, now.owner, now.live, now.idle⟩
  | release c =>
      refine unstranded_of_quiet unstranded (fun _ => id) ?_
      rintro index buf msg ⟨waits, content, owner, live, idle⟩
      obtain ⟨other, -⟩ := live_elsewhere (owner ▸ live)
      simp only [SendState.release, SendState.dropPending, SendState.setSend,
        Function.update_of_ne other] at owner idle
      exact ⟨waits, BlockHeap.block_of_free content, owner, live, idle⟩
  | close c opened =>
      refine unstranded_of_quiet unstranded (fun _ => id) ?_
      rintro index buf msg ⟨waits, content, owner, live, idle⟩
      obtain ⟨other, -⟩ := live_elsewhere (owner ▸ live)
      simp only [SendState.close, SendState.setSend, Function.update_of_ne other] at owner idle
      exact ⟨waits, content, owner, live, idle⟩
  | discard msg =>
      refine unstranded_of_quiet unstranded (fun _ => id) ?_
      rintro index buf found ⟨waits, content, owner, live, idle⟩
      rw [discard_block state msg (waiting_old sound (List.mem_of_getElem? waits))] at content
      exact ⟨waits, content, owner, live, idle⟩
  | push msg => exact fun _ _ _ _ => Or.inl (Nat.succ_pos _)
  | wake interrupted => exact fun _ _ _ _ => Or.inr (Or.inl rfl)
  | beginPass => exact unstranded_begin_pass sound
  | endPass pos iterator finished => exact unstranded_end_pass unstranded iterator finished
  | skip pos buf msg here busy => exact unstranded_skip unstranded framed here busy
  | dropStale pos buf msg here =>
      refine unstranded_of_erase unstranded here.iterator rfl rfl rfl ?_
      rintro old index other found ⟨-, content, owner, live, idle⟩ waits
      exact ⟨waits, BlockHeap.block_of_free content, owner, live, idle⟩
  | start pos buf msg progress registered here owner live free =>
      exact unstranded_start unstranded framed here registered (by rwa [owner]) free
  | write c progress registered => exact unstranded_write unstranded registered
  | uncount c may => exact may.elim

end Moves

abbrev Packet := Nat × MsgBuf

def packetBytes (packet : Packet) : List Byte := packet.2.pkg

def ofOcc (o : OccId) (packet : Packet) : Bool := decide (packet.2.hdr.occ = some o)

def packetAt (heap : Heap MsgBuf) (buf : Nat) : Option Packet :=
  (heap.block buf).map fun msg => (buf, msg)

def packets (heap : Heap MsgBuf) (queue : List Nat) : List Packet :=
  queue.filterMap (packetAt heap)

def underway (state : SendState) (c : ConnId) : Option (Packet × Nat) :=
  if (state.send c).psendMemPointer = null then none
  else
    (packetAt state.sheap (state.send c).psendMemPointer).map fun packet =>
      (packet, (state.send c).psendbuf.2 - lenMsgHeader)

/-- The bytes written to the socket of an occupancy. -/
def wire (sends : List SendCall) (o : OccId) : List Byte :=
  (sends.filter fun call => decide (call.occ = some o)).flatMap SendCall.written

/-- What was queued for an occupancy, what of it waits, what is pending and
what was written. -/
def ledgerOf (state : SendState) (c : ConnId) (o : OccId) : Ledger Packet Byte where
  accepted := state.queued.filter (ofOcc o)
  waiting := (packets state.sheap state.queue).filter (ofOcc o)
  underway := underway state c
  stream := wire state.sends o

def Accounted (state : SendState) : Prop :=
  ∀ c o, state.occ c = some o → Balanced packetBytes (ledgerOf state c o)

theorem packets_congr {heap later : Heap MsgBuf} {queue : List Nat}
    (same : ∀ buf ∈ queue, later.block buf = heap.block buf) :
    packets later queue = packets heap queue :=
  List.filterMap_congr fun buf member => by rw [packetAt, packetAt, same buf member]

theorem packets_erase {heap : Heap MsgBuf} {queue : List Nat} {pos buf : Nat} {msg : MsgBuf}
    (current : queue[pos]? = some buf) (content : heap.block buf = some msg) :
    (packets heap queue).Perm ((buf, msg) :: packets heap (queue.eraseIdx pos)) := by
  obtain ⟨inside, here⟩ := List.getElem?_eq_some_iff.mp current
  have erased := (List.getElem_cons_eraseIdx_perm inside).symm
  have mapped := erased.filterMap (packetAt heap)
  rw [here, List.filterMap_cons_some (b := (buf, msg)) (by simp [packetAt, content])] at mapped
  exact mapped

theorem wire_append (sends : List SendCall) (call : SendCall) (o : OccId) :
    wire (sends ++ [call]) o =
      wire sends o ++ if call.occ = some o then call.written else [] := by
  by_cases own : call.occ = some o
  · simp [wire, List.filter_append, own]
  · simp [wire, List.filter_append, own]

section Moves

variable {state after : SendState}

theorem slot_distinct (sound : SendSound state) {pos buf other : Nat}
    (current : state.queue[pos]? = some buf) (member : other ∈ state.queue.eraseIdx pos) :
    other ≠ buf := by
  rintro rfl
  obtain ⟨index, here⟩ := List.mem_iff_getElem?.mp member
  obtain ⟨old, before, apart, -⟩ := erase_idx_get state.queue here
  have held : Holds state (.slot old) other := before
  have also : Holds state (.slot pos) other := current
  exact apart (PacketHolder.slot.inj (sound.exclusive.unique _ _ _ held also))

theorem slot_not_pending (sound : SendSound state) {buf : Nat} (waits : buf ∈ state.queue)
    (c : ConnId) : buf ≠ (state.send c).psendMemPointer := by
  intro same
  obtain ⟨index, here⟩ := List.mem_iff_getElem?.mp waits
  have held : Holds state (.slot index) buf := here
  have also : Holds state (.conn c) buf :=
    ⟨same.symm, Ownership.held_ne_null sound.exclusive held⟩
  cases sound.exclusive.unique _ _ _ held also

theorem underway_congr {c : ConnId} (send : after.send c = state.send c)
    (content : (state.send c).psendMemPointer ≠ null →
      after.sheap.block (state.send c).psendMemPointer =
        state.sheap.block (state.send c).psendMemPointer) :
    underway after c = underway state c := by
  unfold underway
  rw [send]
  split
  · rfl
  case isFalse pending => rw [packetAt, packetAt, content pending]

theorem underway_none {c : ConnId} (idle : (state.send c).psendMemPointer = null) :
    underway state c = none := if_pos idle

theorem underway_some {c : ConnId} {msg : MsgBuf} {buf : Nat}
    (pointer : (state.send c).psendMemPointer = buf) (pending : buf ≠ null)
    (content : state.sheap.block buf = some msg) :
    underway state c = some ((buf, msg), (state.send c).psendbuf.2 - lenMsgHeader) := by
  subst pointer
  rw [underway, if_neg pending, packetAt, content]
  rfl

/-- Moves that neither queue nor send nor touch a packet of an open
connection. -/
theorem accounted_of_quiet (accounted : Accounted state)
    (queued : after.queued = state.queued) (queue : after.queue = state.queue)
    (sends : after.sends = state.sends)
    (content : ∀ buf ∈ state.queue, after.sheap.block buf = state.sheap.block buf)
    (quiet : ∀ c o, after.occ c = some o → state.occ c = some o ∧
      after.send c = state.send c ∧ ((state.send c).psendMemPointer ≠ null →
        after.sheap.block (state.send c).psendMemPointer =
          state.sheap.block (state.send c).psendMemPointer)) : Accounted after := by
  intro c o serves
  obtain ⟨before, send, pending⟩ := quiet c o serves
  have same : ledgerOf after c o = ledgerOf state c o := by
    simp only [ledgerOf, queued, queue, sends, packets_congr content,
      underway_congr send pending]
  rw [same]
  exact accounted c o before

theorem accounted_own {c : ConnId} (accounted : Accounted state) (named : Named state)
    (idle : (state.send c).psendMemPointer = null) : Accounted (state.own c) := by
  intro d o serves
  by_cases same : d = c
  · subst same
    simp only [SendState.own, Function.update_self] at serves
    cases serves
    have unqueued : state.queued.filter (ofOcc state.nextOcc) = [] := by
      apply List.filter_eq_nil_iff.mpr
      intro packet member stamped
      obtain ⟨o, started, occ⟩ := named.queued_lt packet member
      cases occ.symm.trans (of_decide_eq_true stamped)
      exact Nat.lt_irrefl _ started
    have unwaiting : (packets state.sheap state.queue).filter (ofOcc state.nextOcc) = [] := by
      apply List.filter_eq_nil_iff.mpr
      intro packet member stamped
      obtain ⟨buf, waits, found⟩ := List.mem_filterMap.mp member
      obtain ⟨msg, content, rfl⟩ := Option.map_eq_some_iff.mp found
      have queued := named.waiting_queued buf waits msg content
      exact List.filter_eq_nil_iff.mp unqueued _ queued stamped
    have unsent : wire state.sends state.nextOcc = [] := by
      have none : state.sends.filter (fun call => decide (call.occ = some state.nextOcc)) = [] :=
        List.filter_eq_nil_iff.mpr fun call member own =>
          Nat.lt_irrefl _ (named.calls_lt call member _ (of_decide_eq_true own))
      rw [wire, none]
      rfl
    have empty : ledgerOf (state.own d) d state.nextOcc = ⟨[], [], none, []⟩ := by
      have free : underway (state.own d) d = none := underway_none idle
      simp only [ledgerOf, free]
      simp only [SendState.own, unqueued, unwaiting, unsent]
    rw [empty]
    exact DeliveryLedger.balanced_empty
  · simp only [SendState.own, Function.update_of_ne same] at serves
    exact accounted d o serves

theorem accounted_push {msg : MsgBuf} (accounted : Accounted state) (sound : SendSound state) :
    Accounted (state.push msg) := by
  intro c o serves
  have before := accounted c o serves
  have old : ∀ buf ∈ state.queue, (state.push msg).sheap.block buf = state.sheap.block buf :=
    fun buf waits => push_block state msg (waiting_old sound waits)
  have pending : underway (state.push msg) c = underway state c := by
    refine underway_congr rfl fun notNull => ?_
    exact push_block state msg (next_not_pending sound c notNull)
  have new : packetAt (state.push msg).sheap state.sheap.next = some (state.sheap.next, msg) := by
    have stored : (state.push msg).sheap.block state.sheap.next = some msg :=
      BlockHeap.alloc_block_self _ _
    rw [packetAt, stored]
    rfl
  have waiting : packets (state.push msg).sheap (state.push msg).queue =
      packets state.sheap state.queue ++ [(state.sheap.next, msg)] := by
    have appended : (state.push msg).queue = state.queue ++ [state.sheap.next] := rfl
    rw [appended, packets, List.filterMap_append, ← packets_congr old]
    simp [packets, new]
  by_cases own : ofOcc o (state.sheap.next, msg) = true
  · have grown : ledgerOf (state.push msg) c o =
        ⟨state.queued.filter (ofOcc o) ++ [(state.sheap.next, msg)],
          (packets state.sheap state.queue).filter (ofOcc o) ++ [(state.sheap.next, msg)],
          underway state c, wire state.sends o⟩ := by
      simp only [ledgerOf, waiting, pending]
      simp [SendState.push, List.filter_append, own]
    rw [grown]
    exact DeliveryLedger.balanced_accept before _
  · have kept : ledgerOf (state.push msg) c o = ledgerOf state c o := by
      simp only [ledgerOf, waiting, pending]
      simp [SendState.push, List.filter_append, own]
    rw [kept]
    exact before

/-- The waiting packets of an occupancy behind the erasure of a slot. -/
theorem waiting_erase {pos buf : Nat} {msg : MsgBuf} (sound : SendSound state)
    (here : Current state pos buf msg) (later : Heap MsgBuf)
    (kept : ∀ other, other ≠ buf → later.block other = state.sheap.block other) (o : OccId) :
    ((packets state.sheap state.queue).filter (ofOcc o)).Perm
      (if msg.hdr.occ = some o then
        (buf, msg) :: (packets later (state.queue.eraseIdx pos)).filter (ofOcc o)
      else (packets later (state.queue.eraseIdx pos)).filter (ofOcc o)) := by
  have same : packets later (state.queue.eraseIdx pos) =
      packets state.sheap (state.queue.eraseIdx pos) :=
    packets_congr fun other member => kept other (slot_distinct sound here.current member)
  have erased := (packets_erase here.current here.content).filter (ofOcc o)
  rw [same]
  by_cases own : msg.hdr.occ = some o
  · rw [if_pos own]
    simpa [List.filter_cons, ofOcc, own] using erased
  · rw [if_neg own]
    simpa [List.filter_cons, ofOcc, own] using erased

theorem accounted_drop_stale {pos buf : Nat} {msg : MsgBuf} (accounted : Accounted state)
    (sound : SendSound state) (named : Named state) (here : Current state pos buf msg)
    (stale : state.occ msg.hdr.pConn ≠ msg.hdr.occ) : Accounted (state.dropStale pos buf) := by
  intro c o serves
  have foreign : msg.hdr.occ ≠ some o := by
    intro stamped
    have queued := named.waiting_queued buf (List.mem_of_getElem? here.current) msg here.content
    have home := named.queued_home _ queued c o serves stamped
    have serving : state.occ c = some o := serves
    exact stale (by rw [← home, serving, stamped])
  have waiting := waiting_erase sound here (state.dropStale pos buf).sheap
    (fun other apart => (BlockHeap.free_block _ _ _).trans (if_neg fun both => apart both.2)) o
  rw [if_neg foreign] at waiting
  have pending : underway (state.dropStale pos buf) c = underway state c :=
    underway_congr rfl fun notNull => drop_stale_block sound here.current notNull
  have before := DeliveryLedger.balanced_reorder (accounted c o serves) waiting
  rw [← pending] at before
  exact before

theorem accounted_other {c : ConnId} {o : OccId} {waiting : List Packet}
    (balanced : Balanced packetBytes (ledgerOf state c o))
    (queued : after.queued = state.queued) (send : after.send c = state.send c)
    (content : (state.send c).psendMemPointer ≠ null →
      after.sheap.block (state.send c).psendMemPointer =
        state.sheap.block (state.send c).psendMemPointer)
    (wires : wire after.sends o = wire state.sends o)
    (waits : (packets after.sheap after.queue).filter (ofOcc o) = waiting)
    (reorder : ((packets state.sheap state.queue).filter (ofOcc o)).Perm waiting) :
    Balanced packetBytes (ledgerOf after c o) := by
  have before := DeliveryLedger.balanced_reorder balanced reorder
  rw [ledgerOf, queued, waits, underway_congr send content, wires]
  exact before

/-- The bytes that the send thread writes for the packet that it starts. -/
theorem start_wire {pos buf : Nat} {msg : MsgBuf} {progress : Progress} (sound : SendSound state)
    (here : Current state pos buf msg) (registered : Bool) {p : OccId}
    (serving : state.occ msg.hdr.pConn = some p) (fits : progress.Fits (pkgLen msg.pkg))
    (o : OccId) :
    wire (state.start pos buf msg progress registered).sends o =
      wire state.sends o ++ if p = o then msg.pkg.take progress.sendsize.toNat else [] := by
  have held : Holds state (.slot pos) buf := here.current
  have begunSound := sound_begin sound here.current here.content
  have begunPart : ((state.begin pos buf msg).send msg.hdr.pConn) =
      { state.send msg.hdr.pConn with
        psendMemPointer := buf
        psendbuf := (buf, lenMsgHeader)
        isendlen := pkgLen msg.pkg } := set_send_self _ _ _
  have bound : progress.sendsize ≤ ((state.begin pos buf msg).send msg.hdr.pConn).isendlen := by
    rw [begunPart]
    exact progress_fits_le fits
  obtain ⟨-, written, -⟩ := send_call_pending begunSound
    (by rw [begunPart]; exact Ownership.held_ne_null sound.exclusive held)
    (by rw [begunPart]; exact here.content) false
    (decide ((state.send msg.hdr.pConn).psendMemPointer ≠ null)) bound
  rw [begunPart, Nat.sub_self, List.drop_zero] at written
  have callOcc : ((state.begin pos buf msg).sendCall msg.hdr.pConn false
      (decide ((state.send msg.hdr.pConn).psendMemPointer ≠ null)) progress.sendsize).occ =
      some p := serving
  rw [start_sends, wire_append, callOcc, written]
  simp only [Option.some.injEq]

/-- The ledger of an occupancy whose packet is taken up and sent in part. -/
theorem begun_balanced {c : ConnId} {o : OccId} {packet : Packet} {rest : List Packet}
    (balanced : Balanced packetBytes (ledgerOf state c o))
    (idle : (state.send c).psendMemPointer = null)
    (taken : ((packets state.sheap state.queue).filter (ofOcc o)).Perm (packet :: rest))
    (count : Nat) :
    Balanced packetBytes ⟨state.queued.filter (ofOcc o), rest, some (packet, count),
      wire state.sends o ++ (packetBytes packet).take count⟩ := by
  rw [ledgerOf, underway_none idle] at balanced
  have sent := DeliveryLedger.balanced_send (DeliveryLedger.balanced_begin balanced taken) count
  rwa [Nat.zero_add, List.drop_zero] at sent

theorem started_balanced {pos buf : Nat} {msg : MsgBuf} {progress : Progress}
    (sound : SendSound state) (here : Current state pos buf msg) (registered : Bool) {o : OccId}
    {rest : List Packet} (stream : List Byte)
    (balanced : Balanced packetBytes ⟨state.queued.filter (ofOcc o), rest,
      some ((buf, msg), progress.sendsize.toNat), stream⟩)
    (fits : progress.Fits (pkgLen msg.pkg)) (smooth : SmoothProgress progress) :
    Balanced packetBytes ⟨state.queued.filter (ofOcc o), rest,
      underway (state.start pos buf msg progress registered) msg.hdr.pConn, stream⟩ := by
  have held : Holds state (.slot pos) buf := here.current
  have notNull := Ownership.held_ne_null sound.exclusive held
  have part : (state.start pos buf msg progress registered).send msg.hdr.pConn =
      startedPart (state.send msg.hdr.pConn) buf msg progress := by
    rw [start_send, Function.update_self]
  have sheap := start_sheap state pos buf msg progress registered
  cases progress with
  | part count | blocked =>
      rw [underway_some (by rw [part]; rfl) notNull (by rw [sheap]; exact here.content), part]
      simpa [startedPart, Progress.sendsize] using balanced
  | done sendsize =>
      have positive := smooth sendsize rfl
      have total : sendsize = pkgLen msg.pkg := by
        rcases fits with whole | failed
        · exact whole
        · omega
      rw [underway_none (by rw [part]; rfl)]
      apply DeliveryLedger.balanced_finish balanced
      have size : msg.pkg.length = pkgLen msg.pkg := (sound.sized buf msg here.content).1.symm
      simp [packetBytes, Progress.sendsize, size, total]

theorem accounted_start {pos buf : Nat} {msg : MsgBuf} {progress : Progress}
    (accounted : Accounted state) (sound : SendSound state) (framed : Framed state)
    (named : Named state) (here : Current state pos buf msg) (registered : Bool)
    (owner : state.occ msg.hdr.pConn = msg.hdr.occ) (live : msg.hdr.occ ≠ none)
    (free : (state.send msg.hdr.pConn).iThrowsendCount ≤ 0)
    (fits : progress.Fits (pkgLen msg.pkg)) (smooth : SmoothProgress progress) :
    Accounted (state.start pos buf msg progress registered) := by
  have held : Holds state (.slot pos) buf := here.current
  obtain ⟨p, stamped⟩ := Option.ne_none_iff_exists'.mp live
  have serving := owner.trans stamped
  have idle : (state.send msg.hdr.pConn).psendMemPointer = null := by
    rcases framed.steady msg.hdr.pConn (by simp [serving]) with ⟨-, idle⟩ | ⟨one, -⟩
    · exact idle
    · omega
  obtain ⟨-, queued, queue, -, -⟩ := start_rest state pos buf msg progress registered
  have sheap := start_sheap state pos buf msg progress registered
  intro c o serves
  rw [start_occ] at serves
  have stream := start_wire sound here registered serving fits o
  have waiting := waiting_erase sound here (state.start pos buf msg progress registered).sheap
    (fun other apart => by rw [sheap, free_ended_block _ _ apart]) o
  by_cases same : c = msg.hdr.pConn
  · subst same
    cases serving.symm.trans serves
    rw [if_pos stamped] at waiting
    rw [if_pos rfl] at stream
    have begun := begun_balanced (accounted msg.hdr.pConn p serves) idle waiting
      progress.sendsize.toNat
    have started := started_balanced sound here registered _ begun fits smooth
    rw [ledgerOf, queued, queue, stream]
    exact started
  · have foreign : p ≠ o := by
      rintro rfl
      exact same (named.owner_once c msg.hdr.pConn p serves serving)
    rw [if_neg (by simpa [stamped] using foreign)] at waiting
    rw [if_neg foreign, List.append_nil] at stream
    refine accounted_other (accounted c o serves) queued ?_ ?_ stream (by rw [queue]) waiting
    · rw [start_send, Function.update_of_ne same]
    · intro pending
      rw [sheap, free_ended_block]
      rintro rfl
      cases sound.exclusive.unique _ _ _ held (pending_held state pending)

theorem write_wire {c : ConnId} {progress : Progress} {msg : MsgBuf} (sound : SendSound state)
    (registered : Bool) (pending : (state.send c).psendMemPointer ≠ null)
    (content : state.sheap.block (state.send c).psendMemPointer = some msg)
    (fits : progress.Fits (state.send c).isendlen) (o : OccId) :
    wire (state.write c progress registered).sends o =
      wire state.sends o ++ if state.occ c = some o then
        (msg.pkg.drop ((state.send c).psendbuf.2 - lenMsgHeader)).take progress.sendsize.toNat
      else [] := by
  obtain ⟨-, written, -⟩ := send_call_pending sound pending content true false
    (progress_fits_le fits)
  have callOcc : (state.sendCall c true false progress.sendsize).occ = state.occ c := rfl
  rw [write_sends, wire_append, callOcc, written]

theorem written_balanced {c : ConnId} {o : OccId} {progress : Progress} {msg : MsgBuf}
    (balanced : Balanced packetBytes (ledgerOf state c o)) (sound : SendSound state)
    (pending : (state.send c).psendMemPointer ≠ null)
    (content : state.sheap.block (state.send c).psendMemPointer = some msg)
    (fits : progress.Fits (state.send c).isendlen) (smooth : SmoothProgress progress)
    (registered : Bool) :
    Balanced packetBytes ⟨state.queued.filter (ofOcc o),
      (packets state.sheap state.queue).filter (ofOcc o),
      underway (state.write c progress registered) c,
      wire state.sends o ++
        (msg.pkg.drop ((state.send c).psendbuf.2 - lenMsgHeader)).take
          progress.sendsize.toNat⟩ := by
  obtain ⟨found, present, -, base, behind, some, total⟩ :=
    whole_part_iff.mp (sound.whole c pending)
  rw [content] at present
  cases present
  rw [ledgerOf, underway_some rfl pending content] at balanced
  have sent := DeliveryLedger.balanced_send balanced progress.sendsize.toNat
  have part : (state.write c progress registered).send c =
      writtenPart (state.send c) progress := by
    rw [write_send, Function.update_self]
  have sheap := write_sheap state c progress registered
  cases progress with
  | part count =>
      rw [underway_some (by rw [part]; rfl) pending (by rw [sheap]; exact content), part]
      have moved : (state.send c).psendbuf.2 - lenMsgHeader + count =
          (state.send c).psendbuf.2 + count - lenMsgHeader := by omega
      simpa [writtenPart, Progress.sendsize, packetBytes, moved] using sent
  | blocked =>
      rw [underway_some (by rw [part]; rfl) pending (by rw [sheap]; exact content), part]
      simpa [writtenPart, Progress.sendsize, packetBytes] using sent
  | done sendsize =>
      have positive := smooth sendsize rfl
      have rest : sendsize = (state.send c).isendlen := by
        rcases fits with whole | failed
        · exact whole
        · omega
      rw [underway_none (by rw [part]; rfl)]
      apply DeliveryLedger.balanced_finish sent
      simp only [packetBytes, Progress.sendsize, rest, Int.toNat_natCast]
      omega

theorem accounted_write {c : ConnId} {progress : Progress} (accounted : Accounted state)
    (sound : SendSound state) (armed : Armed state) (named : Named state) (registered : Bool)
    (fits : progress.Fits (state.send c).isendlen)
    (may : state.occ c ≠ none →
      watchesOut (state.kmask c) = true ∧ SmoothProgress progress) :
    Accounted (state.write c progress registered) := by
  obtain ⟨-, queued, queue, -, -⟩ := write_rest state c progress registered
  have sheap := write_sheap state c progress registered
  have waiting : packets (state.write c progress registered).sheap
      (state.write c progress registered).queue = packets state.sheap state.queue := by
    rw [queue]
    apply packets_congr
    intro buf waits
    rw [sheap, free_ended_block _ _ (slot_not_pending sound waits c)]
  intro d o serves
  rw [write_occ] at serves
  by_cases same : d = c
  · subst same
    obtain ⟨watches, smooth⟩ := may (by simp [serves])
    have pending := ((armed d).mp watches).2
    obtain ⟨msg, content, -⟩ := whole_part_iff.mp (sound.whole d pending)
    have stream := write_wire sound registered pending content fits o
    rw [if_pos serves] at stream
    rw [ledgerOf, queued, waiting, stream]
    exact written_balanced (accounted d o serves) sound pending content fits smooth registered
  · have foreign : state.occ c ≠ some o :=
      fun also => same (named.owner_once d c o serves also)
    refine accounted_other (accounted d o serves) queued ?_ ?_ ?_ (by rw [waiting])
      (List.Perm.refl _)
    · rw [write_send, Function.update_of_ne same]
    · intro pending
      rw [sheap, free_ended_block _ _ (pending_distinct sound same pending)]
    · have callOcc : (state.sendCall c true false progress.sendsize).occ = state.occ c := rfl
      rw [write_sends, wire_append, callOcc, if_neg foreign, List.append_nil]

theorem accounted_move (accounted : Accounted state) (sound : SendSound state)
    (framed : Framed state) (armed : Armed state) (named : Named state)
    (move : SendMove smoothRules state after) : Accounted after := by
  cases move with
  | reset c part unowned =>
      refine accounted_of_quiet accounted rfl rfl rfl (fun _ _ => rfl) fun d o serves => ?_
      have other : d ≠ c := by
        rintro rfl
        cases serves.symm.trans unowned
      exact ⟨serves, Function.update_of_ne other _ _, fun _ => rfl⟩
  | own c unowned idle => exact accounted_own accounted named idle
  | arm c mask registered | wake interrupted | beginPass | endPass pos | skip pos buf msg =>
      exact accounted_of_quiet accounted rfl rfl rfl (fun _ _ => rfl)
        fun _ _ serves => ⟨serves, rfl, fun _ => rfl⟩
  | release c =>
      have freed : ∀ buf, buf ≠ (state.send c).psendMemPointer →
          (state.release c).sheap.block buf = state.sheap.block buf :=
        fun buf apart => (BlockHeap.free_block _ _ _).trans (if_neg fun both => apart both.2)
      refine accounted_of_quiet accounted rfl rfl rfl
        (fun buf waits => freed buf (slot_not_pending sound waits c)) fun d o serves => ?_
      obtain ⟨other, before⟩ := serves_elsewhere serves
      refine ⟨before, ?_, fun pending => freed _ ?_⟩
      · rw [SendState.release, SendState.dropPending, set_send_ne _ _ other]
      · exact pending_distinct sound other pending
  | close c opened =>
      refine accounted_of_quiet accounted rfl rfl rfl (fun _ _ => rfl) fun d o serves => ?_
      obtain ⟨other, before⟩ := serves_elsewhere serves
      exact ⟨before, set_send_ne _ _ other, fun _ => rfl⟩
  | discard msg =>
      refine accounted_of_quiet accounted rfl rfl rfl
        (fun buf waits => discard_block state msg (waiting_old sound waits)) ?_
      exact fun d o serves => ⟨serves, rfl, fun pending =>
        discard_block state msg (next_not_pending sound d pending)⟩
  | push msg => exact accounted_push accounted sound
  | dropStale pos buf msg here stale => exact accounted_drop_stale accounted sound named here stale
  | start pos buf msg progress registered here owner live free fits may =>
      exact accounted_start accounted sound framed named here registered owner live free fits may.1
  | write c progress registered fits dead may =>
      exact accounted_write accounted sound armed named registered fits
        fun live => ⟨(may live).1, (may live).2.1⟩
  | uncount c may => exact may.elim

end Moves

structure Delivering (state : SendState) : Prop where
  framed : Framed state
  armed : Armed state
  named : Named state
  unstranded : Unstranded state
  accounted : Accounted state

theorem delivering_move (before after : SendState) (sound : SendSound before)
    (delivering : Delivering before) (move : SendMove smoothRules before after) :
    Delivering after := by
  obtain ⟨framed, armed, named, unstranded, accounted⟩ := delivering
  exact
    { framed := framed_move sound framed (framing_move armed move)
      armed := armed_move sound framed armed move
      named := named_move sound named move
      unstranded := unstranded_move sound framed named unstranded move
      accounted := accounted_move accounted sound framed armed named move }

theorem fresh_delivering (server : Server) (fresh : Fresh server) :
    Delivering (sendState server) := by
  have framed := fresh_framed fresh
  obtain ⟨listenFds, -, -, rfl⟩ := fresh
  refine ⟨framed, ?_, ⟨nofun, nofun, nofun, nofun, nofun, List.nodup_nil, nofun, nofun⟩, ?_, nofun⟩
  · intro c
    exact ⟨nofun, fun both => absurd rfl both.1⟩
  · intro index buf msg now
    cases now.waits

theorem result_normal {outcome : SendOutcome} (normal : Normal outcome = true) :
    outcome.result > 0 ∨ outcome.result = -1 := by
  induction outcome with
  | sent count =>
      have some := of_decide_eq_true normal
      simp only [SendOutcome.result]
      omega
  | eagain => exact Or.inr rfl
  | eintr next ih => exact ih normal
  | zero => cases normal
  | error => cases normal

theorem progress_of_smooth {outcome : SendOutcome} (normal : Normal outcome = true)
    (isendlen : Nat) : SmoothProgress (progressOf isendlen outcome.result) := by
  intro sendsize ended
  have result := result_normal normal
  unfold progressOf at ended
  split_ifs at ended
  cases ended
  omega

/-- A read handler that does not close the connection sends nothing. -/
theorem read_side_open {cfg : Config} {server : Server} {c : ConnId} {revents : BitVec 32}
    {recv : RecvOutcome} {junk : Nat → Byte} {nowMs : Nat} {now : Int}
    (live : (readSide cfg server c revents recv junk nowMs now).ghost.occ c ≠ none) :
    sendState (readSide cfg server c revents recv junk nowMs now) = sendState server := by
  unfold readSide at live ⊢
  split at live
  case isTrue reads =>
    rw [if_pos reads]
    obtain ⟨received, same, ends⟩ :=
      Frames.ngx_read_request_handler_frame cfg server c recv junk nowMs now
    rcases ends with read | closed
    · rw [read]
      exact send_state_of_recv same
    · rw [closed] at live
      have shut := congrArg (fun state : SendState => state.occ c)
        (zd_closesocket_proc_send_state cfg received c now)
      exact absurd (shut.trans (Function.update_self _ _ _)) live
  case isFalse skips => rw [if_neg skips]

theorem smooth_permits {cfg : Config} {server : Server} {act : Act}
    (smooth : Smooth server act) : Permits smoothRules cfg server act := by
  obtain ⟨-, smooth⟩ := smooth
  cases act with
  | event c revents recv send ctlOk junk nowMs now =>
      intro out
      obtain ⟨plain, watches, normal, registered⟩ := smooth out
      rw [if_neg (by simp [plain])]
      intro live
      refine ⟨?_, progress_of_smooth normal _, registered⟩
      rw [read_side_open live]
      exact watches
  | msgSend msg now => exact smooth
  | element outcome ctlOk => exact fun isendlen => ⟨progress_of_smooth smooth.1 isendlen, smooth.2⟩
  | _ => trivial

/-- What holds of the packets queued for an occupancy `o` that is open on `c`. -/
structure DeliveredOnce (server : Server) (c : ConnId) (o : OccId) : Prop where
  /-- the packets queued are distinct -/
  distinct : (server.ghost.queued.filter (ofOcc o)).Nodup
  /-- each of them waits, is pending or is delivered, and what was written are
  the delivered ones and the first part of the pending one -/
  balanced : ∃ delivered : List Packet,
    (server.ghost.queued.filter (ofOcc o)).Perm
        (delivered ++ underwayItems (underway (sendState server) c) ++
          (packets server.sheap server.msgSendQueue).filter (ofOcc o)) ∧
      wire server.ghost.sends o = delivered.flatMap packetBytes ++
        sentPart packetBytes (underway (sendState server) c)
  /-- the rest of a pending packet are the `isendlen` bytes at `psendbuf`, and
  there is one -/
  rest : (server.conns c).send.psendMemPointer ≠ null → sendsFromLive server c = true
  /-- a pending packet waits for an event that will come -/
  armed : watchesOut (server.kmask c) = true ↔ (server.conns c).send.psendMemPointer ≠ null
  /-- a waiting packet that nothing pending holds up: the send thread is on its
  way to it -/
  attended : ∀ index buf msg, server.msgSendQueue[index]? = some buf →
    server.sheap.block buf = some msg → msg.hdr.occ = some o →
    (server.conns c).send.psendMemPointer = null →
      server.semEventSendQueue > 0 ∨ server.sendPc = .woken ∨
        ∃ pos ≤ index, server.sendPc = .pass pos

theorem delivered_once {server : Server} {c : ConnId} {o : OccId}
    (sound : SendSound (sendState server)) (delivering : Delivering (sendState server))
    (serves : server.ghost.occ c = some o) : DeliveredOnce server c o where
  distinct := (List.Nodup.of_map _ delivering.named.queued_once).filter _
  balanced := delivering.accounted c o serves
  rest := fun pending => sound.whole c pending
  armed := by
    refine (delivering.armed c).trans ⟨And.right, fun pending => ⟨?_, pending⟩⟩
    simp [sendState, serves]
  attended := by
    intro index buf msg waits content stamped idle
    have queued := delivering.named.waiting_queued buf (List.mem_of_getElem? waits) msg content
    have home : c = msg.hdr.pConn := delivering.named.queued_home _ queued c o serves stamped
    subst home
    exact delivering.unstranded index buf msg
      ⟨waits, content, serves.trans stamped.symm, by simp [stamped], idle⟩

/-- In every smooth run and for every open connection, replies are delivered
once, whole, and are never stranded. -/
theorem replies_delivered_once (cfg : Config) (server : Server)
    (reached : Reachable cfg Smooth server) (c : ConnId) (o : OccId)
    (serves : server.ghost.occ c = some o) : DeliveredOnce server c o := by
  obtain ⟨-, sound, delivering⟩ := reachable_send_state fresh_delivering delivering_move
    (fun _ _ smooth => smooth.1) (fun _ _ => smooth_permits) reached
  exact delivered_once sound delivering serves

/-- Two packets, the first of which is sent in two parts. -/
theorem replies_delivered_once_sample :
    ∃ server, wire server.ghost.sends 0 = encodeHeader 8 0 0 ∧ server.semEventSendQueue = 2 ∧
      DeliveredOnce server 1 0 := by
  have seen : (run sampleConfig Smooth
      [.epollInit (fun _ => true) 1000, .accept 0 [.ok 5] true true 1001,
        .msgSend
          { hdr := { pConn := 1, iCurrsequence := 1, occ := some 0 }, pkg := encodeHeader 8 0 0 }
          1002,
        .msgSend
          { hdr := { pConn := 1, iCurrsequence := 1, occ := some 0 }, pkg := encodeHeader 8 5 0 }
          1003, .semWait false, .beginPass, .element (.sent 3) true, .element .eagain true,
        .endPass, .event 1 epollOut .again (.eintr (.sent 5)) true (fun _ => 0) 0 1004]).map
      (fun server => (wire server.ghost.sends 0, server.semEventSendQueue,
        server.ghost.occ 1)) = some (encodeHeader 8 0 0, 2, some 0) := by
    decide
  obtain ⟨server, reached, same⟩ := reachable_of_seen seen
  simp only [Prod.mk.injEq] at same
  obtain ⟨written, posted, serves⟩ := same
  exact ⟨server, written, posted, replies_delivered_once sampleConfig server reached 1 0 serves⟩

end NgxServer.Delivery
