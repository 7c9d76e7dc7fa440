import Mathlib.Data.List.Perm.Subperm
import Mathlib.Tactic.IntervalCases
import NgxServer.Agreement
import NgxServer.ClientReader
import NgxServer.Traffic

/-!
# Requests and replies

What the process is for: each request of a client is answered once, to that
client. In a run in which only handlers call `msgSend`, what is written to the
socket of a client are replies to packages that came from it, each to a package
of its own, and when all work is done every package that has an answer has got
it.
-/

namespace NgxServer.Service

open NgxServer.Comm NgxServer.State NgxServer.Socket NgxServer.Request NgxServer.Logic
open NgxServer.System NgxServer.PoolRefinement NgxServer.Occupancy NgxServer.Reassembly
open NgxServer.Codec NgxServer.BufferSizes NgxServer.Agreement NgxServer.Traffic
open NgxServer.SendMachine NgxServer.SendRefinement
open NgxServer.Delivery (Packet Smooth packets ofOcc wire underway delivered_once)
open DeliveryLedger (underwayItems sentPart)

set_option autoImplicit false

def bodySize : Handler → Nat
  | .handlePing => 0
  | .handleRegister => sizeofRegister
  | .handleLogIn => sizeofLogin

/-- A package that a handler answers. -/
def Answerable (request : List Byte) : Prop :=
  ∃ code handler body, statusHandler[code]?.join = some handler ∧
    body.length = bodySize handler ∧ request = funcsendrecvData code body

/-- A reply has the code and the size of its request, and a checksum of its
own. -/
def Answers (request answer : List Byte) : Prop :=
  ∃ code handler body content, statusHandler[code]?.join = some handler ∧
    body.length = bodySize handler ∧ content.length = bodySize handler ∧
    request = funcsendrecvData code body ∧ answer = funcsendrecvData code content

theorem reply_code {code : Nat} {handler : Handler}
    (known : statusHandler[code]?.join = some handler) : replyCode handler = code := by
  have small : code < 7 := by
    by_contra large
    have missing : statusHandler[code]? = none := List.getElem?_eq_none (Nat.not_lt.mp large)
    rw [missing] at known
    cases known
  interval_cases code <;> cases known <;> rfl

theorem body_size_small (handler : Handler) : bodySize handler ≤ 28992 := by
  cases handler <;> decide

theorem body_handler_some {size code : Nat} {call : Invocation} {junk : Nat → Byte}
    {answer : MsgBuf} (some : 0 < size)
    (replies : bodyHandler size code call junk = Option.some answer) :
    call.iBodyLength = size ∧ ∃ content : List Byte, content.length = size ∧
      answer.pkg = funcsendrecvData code content := by
  unfold bodyHandler at replies
  split_ifs at replies with missing other
  cases replies
  refine ⟨(not_not.mp other).symm, (List.range size).map junk, by simp, ?_⟩
  exact body_reply_encoded _ some junk

/-- A handler that replies got a body of its size, and sends one of that size. -/
theorem reply_some {call : Invocation} {junk : Nat → Byte} {answer : MsgBuf}
    (replies : reply call junk = some answer) :
    call.iBodyLength = bodySize call.handler ∧ ∃ content : List Byte,
      content.length = bodySize call.handler ∧
        answer.pkg = funcsendrecvData (replyCode call.handler) content := by
  unfold reply at replies
  cases handler : call.handler with
  | handlePing =>
      rw [handler] at replies
      simp only [handlePing] at replies
      split_ifs at replies with other
      cases replies
      exact ⟨not_not.mp other, [], rfl, no_body_pkg_encoded _ _⟩
  | handleRegister =>
      rw [handler] at replies
      exact body_handler_some (by decide) replies
  | handleLogIn =>
      rw [handler] at replies
      exact body_handler_some (by decide) replies

theorem body_handler_replies {size : Nat} {call : Invocation} {body : List Byte}
    (some : 0 < size) (argument : call.pPkgBody = handlerBody body)
    (length : call.iBodyLength = body.length) (fits : body.length = size) (code : Nat)
    (junk : Nat → Byte) : (bodyHandler size code call junk).isSome = true := by
  have nonempty : body ≠ [] := by
    rintro rfl
    rw [← fits] at some
    exact absurd some (Nat.lt_irrefl 0)
  have present : call.pPkgBody ≠ none := by
    rw [argument, handlerBody, if_neg nonempty]
    exact Option.some_ne_none body
  have same : ¬ size ≠ call.iBodyLength := by
    rw [length, fits]
    exact not_not.mpr rfl
  rw [bodyHandler, if_neg present, if_neg same]
  rfl

theorem reply_of_size {call : Invocation} {body : List Byte}
    (argument : call.pPkgBody = handlerBody body) (length : call.iBodyLength = body.length)
    (fits : body.length = bodySize call.handler) (junk : Nat → Byte) :
    (reply call junk).isSome = true := by
  unfold reply
  cases handler : call.handler with
  | handlePing =>
      rw [handler] at fits
      have empty : ¬ call.iBodyLength ≠ 0 := not_not.mpr (length.trans fits)
      dsimp only
      rw [handlePing, if_neg empty]
      rfl
  | handleRegister =>
      rw [handler] at fits
      exact body_handler_replies (by decide) argument length fits cmdRegister junk
  | handleLogIn =>
      rw [handler] at fits
      exact body_handler_replies (by decide) argument length fits cmdLogin junk

section AnswerTo

variable {server : Server} {jobbuf : Nat} {junk : Nat → Byte} {msg : MsgBuf}

theorem answer_to_some {answer : MsgBuf} (live : server.rheap.block jobbuf = some msg)
    (answers : answerTo server jobbuf junk = some answer) :
    ∃ call, threadRecvProcFunc (server.conns msg.hdr.pConn).iCurrsequence msg = .ok call ∧
      reply call junk = some answer := by
  rw [answerTo, live] at answers
  dsimp only at answers
  split at answers
  case h_1 => cases answers
  case h_2 call accepted => exact ⟨call, accepted, answers⟩

theorem answer_to_answers {answer : MsgBuf} (live : server.rheap.block jobbuf = some msg)
    (accepted : Accepted msg) (answers : answerTo server jobbuf junk = some answer) :
    Answers msg.pkg answer.pkg ∧ answer.hdr = msg.hdr := by
  obtain ⟨call, dispatched, replies⟩ := answer_to_some live answers
  obtain ⟨code, body, known, -, encodes, header, -, length⟩ :=
    accepted_encoded accepted dispatched
  obtain ⟨size, content, sized, answered⟩ := reply_some replies
  constructor
  · refine ⟨code, call.handler, body, content, known, length.symm.trans size, sized, encodes, ?_⟩
    rw [answered, reply_code known]
  · rw [reply_header replies, header]

/-- A message of a client that is connected stays without an answer only if it has
none. -/
theorem answer_to_none (live : server.rheap.block jobbuf = some msg)
    (current : (server.conns msg.hdr.pConn).iCurrsequence = msg.hdr.iCurrsequence)
    (none : answerTo server jobbuf junk = none) : ¬ Answerable msg.pkg := by
  rintro ⟨code, handler, body, known, fits, encodes⟩
  have size : body.length ≤ 28992 := fits.le.trans (body_size_small handler)
  have same : msg = { hdr := msg.hdr, pkg := funcsendrecvData code body } := by
    rw [← encodes]
  have dispatched := encoded_dispatches msg.hdr known size
  rw [← same] at dispatched
  rw [answerTo, live] at none
  dsimp only at none
  rw [current, dispatched] at none
  dsimp only at none
  let call : Invocation :=
    { handler := handler
      pMsgHeader := msg.hdr
      pPkgBody := handlerBody body
      iBodyLength := body.length }
  have argument : call.pPkgBody = handlerBody body := rfl
  have replies := reply_of_size argument rfl fits junk
  rw [none] at replies
  cases replies

end AnswerTo

/-- Steps in which `msgSend` is called by handlers only, as it is in the program. -/
def OwnCalls (allowed : Server → Act → Prop) (server : Server) (act : Act) : Prop :=
  allowed server act ∧
    match act with
    | .msgSend _ _ => False
    | _ => True

instance (allowed : Server → Act → Prop) [∀ server act, Decidable (allowed server act)]
    (server : Server) : (act : Act) → Decidable (OwnCalls allowed server act)
  | .msgSend _ _ => isFalse And.right
  | .epollInit _ _ | .accept _ _ _ _ _ | .event _ _ _ _ _ _ _ _ | .semWait _ | .beginPass
  | .element _ _ | .endPass | .take _ | .process _ _ _ | .release _ | .monitorPop _
  | .monitorCheck _ | .recycle _ | .close _ _ =>
      inferInstanceAs (Decidable (allowed server _ ∧ True))

def replies (history : History) : List MsgBuf := history.served.filterMap Prod.snd

structure Sends (before after : Server) (answers : List MsgBuf) : Prop where
  queued : ∃ new : List Packet, after.ghost.queued = before.ghost.queued ++ new ∧
    (new.map Prod.snd).Sublist answers
  counted : (after.ghost.queued.length : Int) + after.iDiscardSendPkgCount =
    before.ghost.queued.length + before.iDiscardSendPkgCount + answers.length
  grows : before.iDiscardSendPkgCount ≤ after.iDiscardSendPkgCount

section Sends

variable {cfg : Config} {server after : Server} {act : Act}

theorem sends_none (queued : after.ghost.queued = server.ghost.queued)
    (discarded : after.iDiscardSendPkgCount = server.iDiscardSendPkgCount) :
    Sends server after [] where
  queued := ⟨[], by rw [queued, List.append_nil], List.Sublist.refl []⟩
  counted := by
    rw [queued, discarded, List.length_nil]
    omega
  grows := discarded.ge

theorem sends_of_quiet (quiet : SendBacklog.Quiet server after) : Sends server after [] := by
  have same := quiet.kept
  exact sends_none (congrArg SendBacklog.Counters.queued same)
    (congrArg SendBacklog.Counters.discarded same)

theorem queue_reply_sends (cfg : Config) (server : Server) (answer : MsgBuf) (now : Int) :
    Sends server (queueReply cfg server answer now) [answer] := by
  have refused : ∀ after : Server, after.ghost.queued = server.ghost.queued →
      after.iDiscardSendPkgCount = server.iDiscardSendPkgCount + 1 →
      Sends server after [answer] := by
    intro after queued discarded
    constructor
    case queued => exact ⟨[], by rw [queued, List.append_nil], List.nil_sublist _⟩
    case counted =>
      rw [queued, discarded, List.length_singleton]
      omega
    case grows =>
      rw [discarded]
      omega
  rcases SendBacklog.queue_reply_branches cfg server answer now with
    ⟨-, dropped⟩ | ⟨-, -, closed⟩ | ⟨-, -, pushed⟩
  · rw [dropped]
    exact refused _ rfl rfl
  · rw [closed]
    have same := SendBacklog.counters_zd cfg
      (discardSendPkg (allocReply server answer) server.sheap.next) answer.hdr.pConn now
    exact refused _ (congrArg SendBacklog.Counters.queued same)
      (congrArg SendBacklog.Counters.discarded same)
  · rw [pushed]
    constructor
    case queued => exact ⟨[(server.sheap.next, answer)], rfl, List.Sublist.refl _⟩
    case counted =>
      have longer : (pushSendPkg (allocReply server answer) server.sheap.next
          answer).ghost.queued.length = server.ghost.queued.length + 1 := List.length_append
      have same : (pushSendPkg (allocReply server answer) server.sheap.next
          answer).iDiscardSendPkgCount = server.iDiscardSendPkgCount := rfl
      rw [longer, same, List.length_singleton]
      omega
    case grows => exact Int.le_refl _

theorem sends_after {noted : Server} {answers : List MsgBuf}
    (sent : Sends noted after answers) (queued : noted.ghost.queued = server.ghost.queued)
    (discarded : noted.iDiscardSendPkgCount = server.iDiscardSendPkgCount) :
    Sends server after answers where
  queued := queued ▸ sent.queued
  counted := queued ▸ discarded ▸ sent.counted
  grows := discarded ▸ sent.grows

/-- What a worker sends is what the handler of its message answers. -/
theorem process_message_answer (cfg : Config) (server : Server) (jobbuf : Nat)
    (junk : Nat → Byte) (now : Int) :
    Sends server (processMessage cfg server jobbuf junk now)
      (answerTo server jobbuf junk).toList := by
  cases live : server.rheap.block jobbuf with
  | none =>
      rw [processMessage, answerTo, live]
      exact sends_none rfl rfl
  | some msg =>
      cases accepted : threadRecvProcFunc (server.conns msg.hdr.pConn).iCurrsequence msg with
      | error why =>
          simp only [processMessage, answerTo, live, accepted]
          exact sends_none rfl rfl
      | ok call =>
          simp only [processMessage, answerTo, live, accepted, runHandler]
          cases replies : reply call junk with
          | none => exact sends_none rfl rfl
          | some answer =>
              cases call.handler with
              | handlePing => exact sends_after (queue_reply_sends cfg _ answer now) rfl rfl
              | handleRegister | handleLogIn =>
                  exact sends_after (queue_reply_sends cfg _ answer now) rfl rfl

theorem element_sends (server : Server) (pos pMsgBuf : Nat) (outcome : SendOutcome)
    (ctlOk : Bool) : Sends server (sendElement server pos pMsgBuf outcome ctlOk) [] := by
  unfold sendElement
  split
  case h_1 => exact sends_none rfl rfl
  case h_2 msg live =>
    dsimp only
    split_ifs
    · exact sends_none rfl rfl
    · exact sends_none rfl rfl
    · have counted := SendBacklog.counters_send_element_now server pos pMsgBuf msg outcome ctlOk
      exact sends_none (congrArg SendBacklog.Counters.queued counted)
        (congrArg SendBacklog.Counters.discarded counted)

theorem step_sends (attributed : Attributed server) (owned : RecvOwnership.Owned server)
    (own : OwnCalls Disciplined server act)
    (taken : step cfg server act = some after) :
    Sends server after ((serves server act).filterMap Prod.snd) := by
  have nothing : SendBacklog.LeavesQueue act → serves server act = [] →
      Sends server after ((serves server act).filterMap Prod.snd) := by
    intro leaves none
    rw [none]
    exact sends_of_quiet (SendBacklog.quiet_step attributed leaves taken)
  cases stepped_of_step taken with
  | msgSend msg now => exact own.2.elim
  | semWait | beginPass | endPass => exact sends_none rfl rfl
  | element outcome ctlOk pos pMsgBuf => exact element_sends server pos pMsgBuf outcome ctlOk
  | process worker jobbuf junk now holds =>
      obtain ⟨msg, shelved⟩ := worker_shelved owned (Or.inl holds)
      have sent := process_message_answer cfg server jobbuf junk now
      have answers : (serves server (.process worker junk now)).filterMap Prod.snd =
          (answerTo server jobbuf junk).toList := by
        rw [serves, holds]
        dsimp only
        rw [packets_single shelved.content]
        cases answered : answerTo server jobbuf junk <;> rfl
      rw [answers]
      obtain ⟨queued, counted, grows⟩ := sent
      exact ⟨queued, counted, grows⟩
  | _ => exact nothing trivial rfl

end Sends

structure Replied (server : Server) (history : History) : Prop where
  order : (server.ghost.queued.map Prod.snd).Sublist (replies history)
  counted : (server.ghost.queued.length : Int) + server.iDiscardSendPkgCount =
    (replies history).length
  answered : ∀ packet answer, (packet, some answer) ∈ history.served →
    Answers packet.2.pkg answer.pkg ∧ answer.hdr = packet.2.hdr
  unanswered : ∀ packet, (packet, none) ∈ history.served → Answerable packet.2.pkg →
    ∀ c, server.ghost.occ c ≠ packet.2.hdr.occ

section Runs

variable {cfg : Config} {server after : Server} {history : History} {act : Act}

theorem mem_serves {packet : Packet} {answer : Option MsgBuf}
    (listed : (packet, answer) ∈ serves server act) :
    ∃ worker junk now, act = .process worker junk now ∧
      server.rheap.block packet.1 = some packet.2 ∧ answer = answerTo server packet.1 junk := by
  unfold serves at listed
  split at listed
  case h_1 worker junk now =>
    split at listed
    case h_1 jobbuf holds =>
      obtain ⟨found, member, same⟩ := List.mem_map.mp listed
      cases same
      obtain ⟨here, live⟩ := mem_packets.mp member
      rw [List.mem_singleton.mp here] at live
      rw [List.mem_singleton.mp here]
      exact ⟨worker, junk, now, rfl, live, rfl⟩
    case h_2 => cases listed
  case h_2 => cases listed

/-- An occupancy that is over stays over. -/
theorem over_stays (known : Known cfg server history) (disciplined : Disciplined server act)
    (taken : step cfg server act = some after) {o : OccId} (started : o < server.ghost.nextOcc)
    (ended : ∀ c, server.ghost.occ c ≠ some o) (c : ConnId) : after.ghost.occ c ≠ some o := by
  intro serves
  rcases occupancy_origin known.attributed known.sound known.receiving disciplined taken
    serves with before | new
  · exact ended c before
  · exact absurd started (Nat.not_lt.mpr new)

theorem served_offered (known : Known cfg server history) {packet : Packet}
    {answer : Option MsgBuf} (listed : (packet, answer) ∈ history.served) :
    packet ∈ history.offered := by
  have processed : packet ∈ (work server history).processed :=
    List.mem_map_of_mem (f := Prod.fst) listed
  obtain ⟨worker, took⟩ := known.fair.takenFirst packet processed
  have order : history.offered = history.taken.map Prod.snd ++
      packets server.rheap server.msgRecvQueue := known.fair.order
  rw [order]
  exact List.mem_append_left _ (List.mem_map_of_mem (f := Prod.snd) took)

/-- A header that is not current belongs to an occupancy that is over. -/
theorem stale_over (attributed : Attributed server) {hdr : MsgHeader}
    (stamped : Stamped (poolView server) hdr)
    (stale : (server.conns hdr.pConn).iCurrsequence ≠ hdr.iCurrsequence) (c : ConnId) :
    server.ghost.occ c ≠ hdr.occ := by
  intro serves
  have stamps := settled_stamps attributed.settled
  have current := (stamped_current stamps stamped).mpr
  obtain ⟨o, started, occ, stamp⟩ := stamped
  have home := stamps.current c o (serves.trans occ)
  rw [stamp] at home
  have same : hdr.pConn = c := congrArg Prod.fst home
  rw [← same] at serves
  exact stale (current serves).symm

theorem fresh_replied {server : Server} (fresh : Fresh server) :
    Replied server History.empty := by
  obtain ⟨listenFds, -, -, rfl⟩ := fresh
  constructor
  case order => exact List.Sublist.refl []
  case counted => rfl
  case answered =>
    intro packet answer listed
    cases listed
  case unanswered =>
    intro packet listed
    cases listed

theorem replied_step (reached : Reachable cfg Disciplined server)
    (known : Known cfg server history) (replied : Replied server history)
    (own : OwnCalls Disciplined server act) (taken : step cfg server act = some after) :
    Replied after (history.note server act after) := by
  have sent := step_sends known.attributed known.sound.owned own taken
  have more : replies (history.note server act after) =
      replies history ++ (serves server act).filterMap Prod.snd := List.filterMap_append
  obtain ⟨new, queued, fewer⟩ := sent.queued
  constructor
  case order =>
    rw [more, queued, List.map_append]
    exact replied.order.append fewer
  case counted =>
    have before := replied.counted
    have now := sent.counted
    rw [more, List.length_append]
    push_cast
    omega
  case answered =>
    intro packet answer listed
    rcases List.mem_append.mp listed with older | now
    · exact replied.answered packet answer older
    · obtain ⟨worker, junk, clock, -, live, same⟩ := mem_serves now
      have accepted := reachable_all_sized reached packet.1 packet.2 live
      exact answer_to_answers live accepted same.symm
  case unanswered =>
    intro packet listed answerable
    have stillOver : packet ∈ history.offered ∨ Stamped (poolView server) packet.2.hdr →
        (∀ c, server.ghost.occ c ≠ packet.2.hdr.occ) →
        ∀ c, after.ghost.occ c ≠ packet.2.hdr.occ := by
      intro origin before c
      have stamped := origin.elim (known.streams.stamped packet) id
      obtain ⟨o, started, occ, -⟩ := stamped
      rw [occ] at before ⊢
      exact over_stays known own.1 taken started before c
    rcases List.mem_append.mp listed with older | now
    · exact stillOver (Or.inl (served_offered known older))
        (replied.unanswered packet older answerable)
    · obtain ⟨worker, junk, clock, -, live, same⟩ := mem_serves now
      have stamped := known.attributed.requests packet.2.hdr ⟨packet.1, packet.2, live, rfl⟩
      apply stillOver (Or.inr stamped)
      apply stale_over known.attributed stamped
      intro current
      exact answer_to_none live current same.symm answerable

theorem logged_replied (logged : Logged cfg (OwnCalls Disciplined) server history) :
    Replied server history := by
  induction logged with
  | start server fresh => exact fresh_replied fresh
  | step act before own taken ih =>
      have plain := logged_mono (fun _ _ => And.left) before
      exact replied_step (logged_reachable plain) (logged_known plain) ih own taken

end Runs

structure Exchange where
  request : List Byte
  answer : List Byte

def answered (history : History) : List (Packet × MsgBuf) :=
  history.served.filterMap fun entry => entry.2.map fun answer => (entry.1, answer)

def unanswered (history : History) : List Packet :=
  (history.served.filter fun entry => entry.2.isNone).map Prod.fst

def answeredFor (history : History) (o : OccId) : List (Packet × MsgBuf) :=
  (answered history).filter fun pair => ofOcc o pair.1

def exchange (pair : Packet × MsgBuf) : Exchange where
  request := pair.1.2.pkg
  answer := pair.2.pkg

section Exchanges

variable {cfg : Config} {server : Server} {history : History} {o : OccId}

theorem mem_answered {packet : Packet} {answer : MsgBuf} :
    (packet, answer) ∈ answered history ↔ (packet, some answer) ∈ history.served := by
  simp only [answered, List.mem_filterMap, Option.map_eq_some_iff, Prod.mk.injEq]
  constructor
  · rintro ⟨⟨found, replied⟩, listed, other, rfl, rfl, rfl⟩
    exact listed
  · intro listed
    exact ⟨(packet, some answer), listed, answer, rfl, rfl, rfl⟩

theorem answered_replies (history : History) :
    (answered history).map Prod.snd = replies history := by
  rw [answered, replies, List.map_filterMap]
  congr 1
  funext entry
  cases entry.2 <;> rfl

theorem served_split (history : History) :
    (history.served.map Prod.fst).Perm
      ((answered history).map Prod.fst ++ unanswered history) := by
  unfold answered unanswered
  induction history.served with
  | nil => exact List.Perm.refl _
  | cons entry rest ih =>
      obtain ⟨packet, answer⟩ := entry
      cases answer with
      | none =>
          exact (ih.cons packet).trans List.perm_middle.symm
      | some answer => exact ih.cons packet

theorem answered_for_replies (replied : Replied server history) (o : OccId) :
    (answeredFor history o).map Prod.snd =
      (replies history).filter fun answer => decide (answer.hdr.occ = some o) := by
  rw [← answered_replies, List.filter_map, answeredFor]
  congr 1
  apply List.filter_congr
  intro pair listed
  have same := (replied.answered pair.1 pair.2 (mem_answered.mp listed)).2
  simp only [ofOcc, Function.comp, same]

/-- The packets queued for a client are replies to its messages. -/
theorem queued_answered (replied : Replied server history) (o : OccId) :
    ((server.ghost.queued.filter (ofOcc o)).map Prod.snd).Sublist
      ((answeredFor history o).map Prod.snd) := by
  have order := replied.order.filter fun answer => decide (answer.hdr.occ = some o)
  rw [← answered_for_replies replied] at order
  have same : (server.ghost.queued.map Prod.snd).filter
      (fun answer => decide (answer.hdr.occ = some o)) =
        (server.ghost.queued.filter (ofOcc o)).map Prod.snd := List.filter_map
  rw [← same]
  exact order

theorem map_subperm {Source Item : Type} (view : Source → Item) {few many : List Source}
    (fewer : few.Subperm many) : (few.map view).Subperm (many.map view) := by
  obtain ⟨chosen, same, within⟩ := fewer
  exact ⟨chosen.map view, same.map view, within.map view⟩

theorem served_subperm (known : Known cfg server history) :
    (history.served.map Prod.fst).Subperm history.offered := by
  have once : (history.served.map Prod.fst).Nodup := known.fair.processedOnce
  apply List.subperm_of_subset once
  intro packet listed
  obtain ⟨⟨found, answer⟩, member, rfl⟩ := List.mem_map.mp listed
  exact served_offered known member

/-- The messages of a client that were answered are packages that it sent. -/
theorem answered_requests (known : Known cfg server history) (o : OccId) :
    ((answeredFor history o).map fun pair => pair.1.2.pkg).Subperm
      (emitted (history.stream o)) := by
  have parts := served_split history
  have fewer : ((answered history).map Prod.fst).Subperm history.offered :=
    ((List.sublist_append_left _ _).subperm.trans parts.symm.subperm).trans
      (served_subperm known)
  have requested := map_subperm Delivery.packetBytes (fewer.filter (ofOcc o))
  have same : ((answered history).map Prod.fst).filter (ofOcc o) =
      (answeredFor history o).map Prod.fst := List.filter_map
  rw [same, List.map_map] at requested
  exact requested.trans (known.streams.parsed o).sublist.subperm

theorem exchange_answers (replied : Replied server history) {pair : Packet × MsgBuf}
    (listed : pair ∈ answeredFor history o) :
    Answers (exchange pair).request (exchange pair).answer := by
  have member := mem_answered.mp (List.mem_filter.mp listed).1
  exact (replied.answered pair.1 pair.2 member).1

/-- What is known of a run in which the process serves its clients. -/
theorem logged_service (logged : Logged cfg (OwnCalls Smooth) server history) :
    Known cfg server history ∧ Replied server history ∧
      Delivery.Accounted (sendState server) := by
  have own : Logged cfg (OwnCalls Disciplined) server history :=
    logged_mono (fun _ _ both => ⟨both.1.1, both.2⟩) logged
  have smooth : Logged cfg Smooth server history := logged_mono (fun _ _ => And.left) logged
  obtain ⟨-, -, delivering⟩ := reachable_send_state Delivery.fresh_delivering
    Delivery.delivering_move (fun _ _ smooth => smooth.1) (fun _ _ => Delivery.smooth_permits)
    (logged_reachable smooth)
  exact ⟨logged_known (logged_mono (fun _ _ => And.left) own), logged_replied own,
    delivering.accounted⟩

end Exchanges

/-- In smooth runs in which only handlers call `msgSend`, what is written to the
socket of a client is the beginning of replies to packages that were received
from it, each to a package of its own. -/
theorem replies_answer_requests (cfg : Config) {server : Server} {history : History}
    (logged : Logged cfg (OwnCalls Smooth) server history) {c : ConnId} {o : OccId}
    (serves : server.ghost.occ c = some o) :
    ∃ exchanges : List Exchange,
      (exchanges.map Exchange.request).Subperm (emitted (history.stream o)) ∧
        (∀ exchange ∈ exchanges, Answers exchange.request exchange.answer) ∧
        wire server.ghost.sends o <+: exchanges.flatMap Exchange.answer := by
  obtain ⟨known, replied, accounted⟩ := logged_service logged
  obtain ⟨sent, listed, begins⟩ := DeliveryLedger.stream_begins (accounted c o serves)
  have fewer := (map_subperm Prod.snd listed).trans (queued_answered replied o).subperm
  obtain ⟨pairs, chosen, same⟩ := DeliveryLedger.exists_subperm_map fewer
  refine ⟨pairs.map exchange, ?_, ?_, ?_⟩
  · rw [List.map_map]
    exact (map_subperm _ chosen).trans (answered_requests known o)
  · intro found member
    obtain ⟨pair, here, rfl⟩ := List.mem_map.mp member
    exact exchange_answers replied (chosen.subset here)
  · have bytes : sent.flatMap Delivery.packetBytes =
        (pairs.map exchange).flatMap Exchange.answer := by
      rw [List.flatMap_map]
      have answers := congrArg (List.flatMap MsgBuf.pkg) same
      rw [List.flatMap_map, List.flatMap_map] at answers
      exact answers.symm
    rw [← bytes]
    exact begins

/-- Nothing is left to do for a client: what came from it was processed, and no
reply to it waits or is under way. -/
structure AtRest (server : Server) (history : History) (c : ConnId) (o : OccId) : Prop where
  processed : ∀ packet ∈ history.offered, packet.2.hdr.occ = some o →
    packet ∈ history.served.map Prod.fst
  sent : ∀ buf ∈ server.msgSendQueue, ∀ msg, server.sheap.block buf = some msg →
    msg.hdr.occ ≠ some o
  idle : (server.conns c).send.psendMemPointer = BlockHeap.null

section Rest

variable {cfg : Config} {server : Server} {history : History} {c : ConnId} {o : OccId}

/-- The messages of a client that was served were answered or not. -/
theorem requests_split (known : Known cfg server history) (rest : AtRest server history c o)
    (serves : server.ghost.occ c = some o) :
    (emitted (history.stream o)).Perm
      ((answeredFor history o).map (fun pair => pair.1.2.pkg) ++
        ((unanswered history).filter (ofOcc o)).map Delivery.packetBytes) := by
  have once : (history.served.map Prod.fst).Nodup := known.fair.processedOnce
  have distinct : history.offered.Nodup := known.fair.distinct
  have all : (history.offered.filter (ofOcc o)).Perm
      ((history.served.map Prod.fst).filter (ofOcc o)) := by
    apply (List.perm_ext_iff_of_nodup (distinct.filter _) (once.filter _)).mpr
    intro packet
    simp only [List.mem_filter]
    constructor
    · intro both
      exact ⟨rest.processed packet both.1 (of_decide_eq_true both.2), both.2⟩
    · intro both
      exact ⟨(served_subperm known).subset both.1, both.2⟩
  have parts := all.trans ((served_split history).filter (ofOcc o))
  rw [List.filter_append, List.filter_map] at parts
  have bytes := parts.map Delivery.packetBytes
  rw [List.map_append, List.map_map] at bytes
  rw [← (known.streams.live c o serves).1]
  exact bytes

theorem discarded_bound (replied : Replied server history) (o : OccId) :
    ((answeredFor history o).length : Int) ≤
      (server.ghost.queued.filter (ofOcc o)).length + server.iDiscardSendPkgCount := by
  obtain ⟨rest, parts⟩ := replied.order.exists_perm_append
  have total := parts.length_eq
  have mine := (parts.filter fun answer => decide (answer.hdr.occ = some o)).length_eq
  rw [← answered_for_replies replied, List.filter_append, List.length_append, List.length_map,
    List.filter_map, List.length_map] at mine
  rw [List.length_append, List.length_map] at total
  have part := List.length_filter_le (fun answer => decide (answer.hdr.occ = some o)) rest
  have counted := replied.counted
  have same : server.ghost.queued.filter
      ((fun answer : MsgBuf => decide (answer.hdr.occ = some o)) ∘ Prod.snd) =
        server.ghost.queued.filter (ofOcc o) := rfl
  rw [same] at mine
  omega

/-- With nothing left to send, what was written are the packets that were queued. -/
theorem sent_all (accounted : Delivery.Accounted (sendState server))
    (rest : AtRest server history c o) (serves : server.ghost.occ c = some o) :
    ∃ sent : List Packet, sent.Perm (server.ghost.queued.filter (ofOcc o)) ∧
      wire server.ghost.sends o = sent.flatMap Delivery.packetBytes := by
  apply DeliveryLedger.stream_complete (accounted c o serves)
  · apply List.filter_eq_nil_iff.mpr
    intro packet listed owned
    obtain ⟨waits, live⟩ := mem_packets.mp listed
    exact rest.sent packet.1 waits packet.2 live (of_decide_eq_true owned)
  · exact if_pos rest.idle

/-- The replies that were written are those of the messages that were answered, but for
at most as many as `msgSend` discarded. -/
theorem written_at_rest (replied : Replied server history)
    (accounted : Delivery.Accounted (sendState server)) (rest : AtRest server history c o)
    (serves : server.ghost.occ c = some o) :
    ∃ pairs others : List (Packet × MsgBuf),
      (answeredFor history o).Perm (pairs ++ others) ∧
        wire server.ghost.sends o = (pairs.map exchange).flatMap Exchange.answer ∧
        (others.length : Int) ≤ server.iDiscardSendPkgCount := by
  obtain ⟨sent, all, bytes⟩ := sent_all accounted rest serves
  obtain ⟨chosen, within, queued⟩ := List.sublist_map_iff.mp (queued_answered replied o)
  have image := all.map Prod.snd
  rw [queued] at image
  obtain ⟨pairs, arranged, same⟩ := DeliveryLedger.exists_perm_map image
  obtain ⟨others, parts⟩ := within.exists_perm_append
  have split := parts.trans (arranged.symm.append_right others)
  refine ⟨pairs, others, split, ?_, ?_⟩
  · have answers := congrArg (List.flatMap MsgBuf.pkg) same
    rw [List.flatMap_map, List.flatMap_map] at answers
    rw [bytes, List.flatMap_map]
    exact answers.symm
  · have bound := discarded_bound replied o
    have total := split.length_eq
    have taken := congrArg List.length same
    have delivered := all.length_eq
    rw [List.length_append] at total
    rw [List.length_map, List.length_map] at taken
    omega

/-- A message of a connected client that was processed without a reply has none. -/
theorem unanswered_ignored (replied : Replied server history) (serves : server.ghost.occ c = some o)
    {request : List Byte}
    (listed : request ∈ ((unanswered history).filter (ofOcc o)).map Delivery.packetBytes) :
    ¬ Answerable request := by
  obtain ⟨packet, member, rfl⟩ := List.mem_map.mp listed
  obtain ⟨ignored, owned⟩ := List.mem_filter.mp member
  obtain ⟨⟨found, answer⟩, entry, rfl⟩ := List.mem_map.mp ignored
  obtain ⟨served, none⟩ := List.mem_filter.mp entry
  intro answerable
  cases answer with
  | some reply => cases none
  | none =>
      exact replied.unanswered found served answerable c
        (serves.trans (of_decide_eq_true owned).symm)

theorem answers_answerable {request answer : List Byte} (answers : Answers request answer) :
    Answerable request := by
  obtain ⟨code, handler, body, -, known, size, -, encodes, -⟩ := answers
  exact ⟨code, handler, body, known, size, encodes⟩

theorem exchanges_answer (replied : Replied server history) {pairs : List (Packet × MsgBuf)}
    (listed : pairs ⊆ answeredFor history o) :
    ∀ exchanged ∈ pairs.map exchange, Answers exchanged.request exchanged.answer := by
  intro exchanged member
  obtain ⟨pair, here, rfl⟩ := List.mem_map.mp member
  exact exchange_answers replied (listed here)

end Rest

/-- When nothing is left to do for a client, all that was received from it is
accounted for: what was written to its socket are whole replies, one to each
package that has an answer, but for at most as many as `msgSend` discarded. -/
theorem requests_answered (cfg : Config) {server : Server} {history : History}
    (logged : Logged cfg (OwnCalls Smooth) server history) {c : ConnId} {o : OccId}
    (serves : server.ghost.occ c = some o) (rest : AtRest server history c o) :
    ∃ (exchanges : List Exchange) (lost ignored : List (List Byte)),
      (emitted (history.stream o)).Perm
          (exchanges.map Exchange.request ++ lost ++ ignored) ∧
        (∀ exchange ∈ exchanges, Answers exchange.request exchange.answer) ∧
        wire server.ghost.sends o = exchanges.flatMap Exchange.answer ∧
        (∀ request ∈ lost, Answerable request) ∧
        (lost.length : Int) ≤ server.iDiscardSendPkgCount ∧
        ∀ request ∈ ignored, ¬ Answerable request := by
  obtain ⟨known, replied, accounted⟩ := logged_service logged
  obtain ⟨pairs, others, split, bytes, few⟩ := written_at_rest replied accounted rest serves
  refine ⟨pairs.map exchange, others.map (fun pair => pair.1.2.pkg),
    ((unanswered history).filter (ofOcc o)).map Delivery.packetBytes, ?_, ?_, bytes, ?_, ?_, ?_⟩
  · have requests := split.map fun pair => pair.1.2.pkg
    rw [List.map_append] at requests
    rw [List.map_map]
    exact (requests_split known rest serves).trans (requests.append_right _)
  · apply exchanges_answer replied
    intro pair here
    exact split.symm.subset (List.mem_append_left _ here)
  · intro request member
    obtain ⟨pair, here, rfl⟩ := List.mem_map.mp member
    exact answers_answerable
      (exchange_answers replied (split.symm.subset (List.mem_append_right _ here)))
  · rw [List.length_map]
    exact few
  · intro request listed
    exact unanswered_ignored replied serves listed

theorem answers_framed {request answer : List Byte} (answers : Answers request answer) :
    ClientReader.Framed answer := by
  obtain ⟨code, handler, -, content, -, -, size, -, rfl⟩ := answers
  have bound : content.length ≤ 28992 := size.le.trans (body_size_small handler)
  constructor
  · rw [encoded_length]
    exact Nat.le_add_right _ _
  · rw [encoded_pkg_len code bound, encoded_length]

/-- The packages of a client that sends what it builds are taken apart again. -/
theorem cut_requests {requests : List (List Byte)}
    (asked : ∀ request ∈ requests, Answerable request) :
    StreamSplitter.cut packages requests.flatten = (requests.map Piece.package, []) := by
  induction requests with
  | nil => exact StreamSplitter.cut_nil packages
  | cons request rest ih =>
      have later := ih fun other listed => asked other (List.mem_cons_of_mem request listed)
      obtain ⟨code, handler, body, -, size, encodes⟩ := asked request List.mem_cons_self
      have bound : body.length ≤ 28992 := size.le.trans (body_size_small handler)
      have announced := encoded_pkg_len code bound
      have length : (funcsendrecvData code body).length = lenPkgHeader + body.length :=
        encoded_length code
      rw [← encodes] at announced length
      simp only [lenPkgHeader] at announced length
      rw [List.flatten_cons, StreamSplitter.cut_append,
        cut_package (by omega) (by omega) (by omega), List.nil_append, later]
      rfl

theorem emitted_requests {requests : List (List Byte)}
    (asked : ∀ request ∈ requests, Answerable request) :
    emitted requests.flatten = requests := by
  rw [emitted, cut_requests asked, List.filterMap_map]
  exact List.filterMap_some

/-- A client that sends requests as it builds them gets, when the process has
nothing left to do for it and nothing was discarded, one reply to each: however
the network cuts up what was written to its socket, `RecvCommonData` returns the
replies one by one, in some order of the requests. -/
theorem conversation (cfg : Config) {server : Server} {history : History}
    (logged : Logged cfg (OwnCalls Smooth) server history) {c : ConnId} {o : OccId}
    (serves : server.ghost.occ c = some o) (rest : AtRest server history c o)
    (kept : server.iDiscardSendPkgCount = 0) {requests : List (List Byte)}
    (asked : ∀ request ∈ requests, Answerable request)
    (received : history.stream o = requests.flatten) {sock : ClientReader.Sock}
    (stream : sock.stream = wire server.ghost.sends o) {buffers : List (List Byte)}
    (count : buffers.length = requests.length)
    (room : ∀ buffer ∈ buffers, buffer.length = 100000) :
    ∃ (exchanges : List Exchange) (last : ClientReader.Sock),
      (exchanges.map Exchange.request).Perm requests ∧
        (∀ exchange ∈ exchanges, Answers exchange.request exchange.answer) ∧
        ClientReader.recvPackets sock buffers =
          some (ClientReader.packetCalls [] (exchanges.map Exchange.answer) buffers, last) ∧
        last.stream = [] := by
  obtain ⟨known, replied, accounted⟩ := logged_service logged
  obtain ⟨pairs, others, split, bytes, few⟩ := written_at_rest replied accounted rest serves
  have all := requests_split known rest serves
  rw [received, emitted_requests asked] at all
  have nothingLost : others = [] := List.length_eq_zero_iff.mp (by omega)
  have nothingIgnored :
      ((unanswered history).filter (ofOcc o)).map Delivery.packetBytes = [] := by
    apply List.eq_nil_iff_forall_not_mem.mpr
    intro request listed
    exact unanswered_ignored replied serves listed
      (asked request (all.symm.subset (List.mem_append_right _ listed)))
  rw [nothingLost, List.append_nil] at split
  rw [nothingIgnored, List.append_nil] at all
  have answers := exchanges_answer replied split.symm.subset
  have requested : ((pairs.map exchange).map Exchange.request).Perm requests := by
    rw [List.map_map]
    exact ((all.trans (split.map _)).symm)
  generalize pairs.map exchange = exchanges at bytes answers requested
  have framed : ∀ packet ∈ exchanges.map Exchange.answer, ClientReader.Framed packet := by
    intro packet listed
    obtain ⟨exchange, member, rfl⟩ := List.mem_map.mp listed
    exact answers_framed (answers exchange member)
  have sizes : buffers.length = (exchanges.map Exchange.answer).length := by
    rw [count, List.length_map, ← requested.length_eq, List.length_map]
  have wires : sock.stream = (exchanges.map Exchange.answer).flatten ++ [] := by
    rw [stream, bytes, List.append_nil, List.flatMap_def]
  obtain ⟨last, calls, ended⟩ := ClientReader.recv_packets framed sizes room wires
  exact ⟨exchanges, last, requested, answers, calls, ended⟩

def heartbeatRun : List Act :=
  [.epollInit (fun _ => true) 1000, .accept 0 [.ok 5] true true 1001,
    ByteStream.recvBytes (encodeHeader 8 0 0), .take 0, .process 0 (fun _ => 7) 1002, .release 0,
    .semWait false, .beginPass, .element (.sent 3) true, .endPass,
    .event 1 epollOut .again (.sent 5) true (fun _ => 7) 0 1003]

/-- The first three bytes of a reply are written. -/
theorem replies_answer_requests_sample :
    ∃ (server : Server) (exchanges : List Exchange),
      wire server.ghost.sends 0 = (encodeHeader 8 0 0).take 3 ∧
        wire server.ghost.sends 0 <+: exchanges.flatMap Exchange.answer := by
  have seen : (logRun ByteStream.unflooded (OwnCalls Smooth) atStart
      (heartbeatRun.take 9)).map
        (fun state => (wire state.1.ghost.sends 0, state.1.ghost.occ 1)) =
      some ((encodeHeader 8 0 0).take 3, some 0) := by
    decide
  obtain ⟨server, history, logged, same⟩ := logged_of_seen seen
  simp only [Prod.mk.injEq] at same
  obtain ⟨written, serves⟩ := same
  obtain ⟨exchanges, -, -, begins⟩ :=
    replies_answer_requests ByteStream.unflooded logged serves
  exact ⟨server, exchanges, written, begins⟩

theorem heartbeat_asked : ∀ request ∈ [encodeHeader 8 0 0], Answerable request := by
  intro request listed
  rw [List.mem_singleton.mp listed]
  exact ⟨cmdPing, .handlePing, [], rfl, rfl, rfl⟩

theorem heartbeat_run_seen :
    ∃ server history, Logged ByteStream.unflooded (OwnCalls Smooth) server history ∧
      server.ghost.occ 1 = some 0 ∧ AtRest server history 1 0 ∧
      server.iDiscardSendPkgCount = 0 ∧ history.stream 0 = encodeHeader 8 0 0 ∧
      wire server.ghost.sends 0 = encodeHeader 8 0 0 := by
  have seen : (logRun ByteStream.unflooded (OwnCalls Smooth) atStart heartbeatRun).map
        (fun state => (decide (state.1.ghost.occ 1 = some 0 ∧ state.1.iDiscardSendPkgCount = 0 ∧
          state.2.offered ⊆ state.2.served.map Prod.fst ∧ state.1.msgSendQueue = [] ∧
          (state.1.conns 1).send.psendMemPointer = BlockHeap.null),
          state.2.stream 0, wire state.1.ghost.sends 0)) =
      some (true, encodeHeader 8 0 0, encodeHeader 8 0 0) := by
    decide
  obtain ⟨server, history, logged, same⟩ := logged_of_seen seen
  simp only [Prod.mk.injEq, decide_eq_true_eq] at same
  obtain ⟨⟨serves, discarded, processed, queue, idle⟩, stream, written⟩ := same
  refine ⟨server, history, logged, serves, ?_, discarded, stream, written⟩
  constructor
  case processed => exact fun packet listed _ => processed listed
  case sent =>
    intro buf waits
    rw [queue] at waits
    cases waits
  case idle => exact idle

theorem requests_answered_sample :
    ∃ (server : Server) (exchanges : List Exchange),
      wire server.ghost.sends 0 = encodeHeader 8 0 0 ∧
        wire server.ghost.sends 0 = exchanges.flatMap Exchange.answer := by
  obtain ⟨server, history, logged, serves, rest, -, -, written⟩ := heartbeat_run_seen
  obtain ⟨exchanges, -, -, -, -, all, -⟩ :=
    requests_answered ByteStream.unflooded logged serves rest
  exact ⟨server, exchanges, written, all⟩

def piecewise : ClientReader.Sock where
  stream := encodeHeader 8 0 0
  cut := fun _ => 3
  calls := 0
  broken := false

/-- The client reads the reply in pieces of three bytes. -/
theorem conversation_sample :
    ∃ (exchanges : List Exchange) (last : ClientReader.Sock),
      (exchanges.map Exchange.request).Perm [encodeHeader 8 0 0] ∧
        ClientReader.recvPackets piecewise [List.replicate 100000 0] =
          some (ClientReader.packetCalls [] (exchanges.map Exchange.answer)
            [List.replicate 100000 0], last) := by
  obtain ⟨server, history, logged, serves, rest, kept, received, written⟩ := heartbeat_run_seen
  have whole : history.stream 0 = [encodeHeader 8 0 0].flatten := by
    rw [received]
    exact (List.append_nil _).symm
  have stream : piecewise.stream = wire server.ghost.sends 0 := written.symm
  have room : ∀ buffer ∈ [List.replicate 100000 (0 : Byte)], buffer.length = 100000 := by
    intro buffer listed
    rw [List.mem_singleton.mp listed, List.length_replicate]
  have count : [List.replicate 100000 (0 : Byte)].length = [encodeHeader 8 0 0].length := rfl
  obtain ⟨exchanges, last, requested, -, calls, -⟩ :=
    conversation ByteStream.unflooded logged serves rest kept heartbeat_asked whole stream count
      room
  exact ⟨exchanges, last, requested, calls⟩

end NgxServer.Service
