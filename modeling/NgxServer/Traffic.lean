import NgxServer.Lib.WorkQueue
import NgxServer.Delivery
import NgxServer.Messages
import NgxServer.SendBacklog

/-!
# What has gone through the process

A run seen from outside: the bytes received for each client, the messages
handed over, taken, processed and freed, and the replies that handlers passed
to `msgSend`. Seen in this history the process is a queue of work, from which
each message is taken once, in order, with the content it was handed over with.
-/

namespace NgxServer.Traffic

open NgxServer.Comm NgxServer.State NgxServer.Socket NgxServer.Request NgxServer.Logic
open NgxServer.System NgxServer.Frames NgxServer.PoolRefinement NgxServer.Occupancy
open NgxServer.RecvOwnership NgxServer.Reassembly NgxServer.ByteStream NgxServer.Messages
open NgxServer.Delivery (Packet packetAt packets packets_congr ofOcc)
open BlockHeap (Heap null)
open StreamSplitter (cut)
open WorkQueue (Hand Queue Move Fair)

set_option autoImplicit false

structure History where
  /-- the bytes that `recv` has returned for an occupancy -/
  stream : OccId → List Byte
  /-- the messages in the order in which they were handed over -/
  offered : List Packet
  /-- who took which message -/
  taken : List (Nat × Packet)
  /-- the messages in the order in which they were processed, with the replies -/
  served : List (Packet × Option MsgBuf)
  freed : List Packet

def History.empty : History where
  stream := fun _ => []
  offered := []
  taken := []
  served := []
  freed := []

def arrives (server : Server) (act : Act) (o : OccId) : List Byte :=
  match act with
  | .event c _ _ _ _ _ _ _ =>
      if server.ghost.occ c = some o then (received c act).flatten else []
  | _ => []

def offers (before after : Server) : List Packet :=
  packets after.rheap (after.msgRecvQueue.drop before.msgRecvQueue.length)

def takes (server : Server) : Act → List (Nat × Packet)
  | .take worker =>
      (packets server.rheap (server.msgRecvQueue.take 1)).map fun packet => (worker, packet)
  | _ => []

def answerTo (server : Server) (jobbuf : Nat) (junk : Nat → Byte) : Option MsgBuf :=
  match server.rheap.block jobbuf with
  | none => none
  | some msg =>
      match threadRecvProcFunc (server.conns msg.hdr.pConn).iCurrsequence msg with
      | .error _ => none
      | .ok call => reply call junk

def serves (server : Server) : Act → List (Packet × Option MsgBuf)
  | .process worker junk _ =>
      match server.workers worker with
      | .taken jobbuf =>
          (packets server.rheap [jobbuf]).map fun packet => (packet, answerTo server jobbuf junk)
      | _ => []
  | _ => []

def frees (server : Server) : Act → List Packet
  | .release worker =>
      match server.workers worker with
      | .processed jobbuf => packets server.rheap [jobbuf]
      | _ => []
  | _ => []

def History.note (history : History) (before : Server) (act : Act) (after : Server) :
    History where
  stream := fun o => history.stream o ++ arrives before act o
  offered := history.offered ++ offers before after
  taken := history.taken ++ takes before act
  served := history.served ++ serves before act
  freed := history.freed ++ frees before act

/-- Runs of allowed actions, with what has gone through the process. -/
inductive Logged (cfg : Config) (allowed : Server → Act → Prop) : Server → History → Prop
  | start (server : Server) (fresh : Fresh server) : Logged cfg allowed server History.empty
  | step {before after : Server} {history : History} (act : Act)
      (logged : Logged cfg allowed before history) (permitted : allowed before act)
      (taken : step cfg before act = some after) :
      Logged cfg allowed after (history.note before act after)

theorem logged_reachable {cfg : Config} {allowed : Server → Act → Prop} {server : Server}
    {history : History} (logged : Logged cfg allowed server history) :
    Reachable cfg allowed server := by
  induction logged with
  | start server fresh => exact TransitionSystem.reachable_start fresh
  | step act _ permitted taken ih =>
      exact TransitionSystem.reachable_steps ih (TransitionSystem.steps_single permitted taken)

def handOf (heap : Heap MsgBuf) : Worker → Hand Packet
  | .idle => none
  | .taken jobbuf => (packetAt heap jobbuf).map fun packet => (packet, false)
  | .processed jobbuf => (packetAt heap jobbuf).map fun packet => (packet, true)

def work (server : Server) (history : History) : Queue Nat Packet where
  offered := history.offered
  pending := packets server.rheap server.msgRecvQueue
  taken := history.taken
  hand := fun worker => handOf server.rheap (server.workers worker)
  processed := history.served.map Prod.fst
  freed := history.freed

theorem packet_at_some {heap : Heap MsgBuf} {address : Nat} {msg : MsgBuf}
    (live : heap.block address = some msg) : packetAt heap address = some (address, msg) := by
  rw [packetAt, live]
  rfl

theorem packets_append (heap : Heap MsgBuf) (queue more : List Nat) :
    packets heap (queue ++ more) = packets heap queue ++ packets heap more :=
  List.filterMap_append

theorem packets_single {heap : Heap MsgBuf} {address : Nat} {msg : MsgBuf}
    (live : heap.block address = some msg) : packets heap [address] = [(address, msg)] :=
  List.filterMap_cons_some (packet_at_some live)

/-- The packets of a list of live addresses are at these addresses. -/
theorem packets_addresses {heap : Heap MsgBuf} {queue : List Nat}
    (live : ∀ address ∈ queue, (heap.block address).isSome) :
    (packets heap queue).map Prod.fst = queue := by
  induction queue with
  | nil => rfl
  | cons address rest ih =>
      obtain ⟨msg, content⟩ := Option.isSome_iff_exists.mp (live address List.mem_cons_self)
      have rested := ih fun other member => live other (List.mem_cons_of_mem address member)
      rw [packets, List.filterMap_cons_some (packet_at_some content), List.map_cons]
      exact congrArg (address :: ·) rested

theorem mem_packets {heap : Heap MsgBuf} {queue : List Nat} {packet : Packet} :
    packet ∈ packets heap queue ↔ packet.1 ∈ queue ∧ heap.block packet.1 = some packet.2 := by
  obtain ⟨address, msg⟩ := packet
  simp only [packets, List.mem_filterMap, packetAt, Option.map_eq_some_iff, Prod.mk.injEq]
  constructor
  · rintro ⟨found, member, content, live, rfl, rfl⟩
    exact ⟨member, live⟩
  · rintro ⟨member, live⟩
    exact ⟨address, member, msg, live, rfl, rfl⟩

section Steps

variable {cfg : Config} {server after : Server} {history : History} {act : Act}

theorem slot_shelved (owned : Owned server) {address : Nat}
    (waits : address ∈ server.msgRecvQueue) : ∃ msg, Shelved server address msg := by
  obtain ⟨index, found⟩ := List.mem_iff_getElem?.mp waits
  have held : Holds server (.slot index) address := found
  exact held_shelved owned held fun _ => nofun

theorem worker_shelved (owned : Owned server) {worker address : Nat}
    (held : Holds server (.worker worker) address) : ∃ msg, Shelved server address msg :=
  held_shelved owned held fun _ => nofun

theorem block_of_shelved {more : List Nat} (aside : Aside server after more) {address : Nat}
    (shelved : ∃ msg, Shelved server address msg) :
    after.rheap.block address = server.rheap.block address := by
  obtain ⟨msg, held⟩ := shelved
  rw [(aside.shelved address msg held).content, held.content]

theorem hand_of_shelved {more : List Nat} (owned : Owned server)
    (aside : Aside server after more) (worker : Nat) :
    handOf after.rheap (server.workers worker) = handOf server.rheap (server.workers worker) := by
  cases state : server.workers worker with
  | idle => rfl
  | taken address =>
      have held : Holds server (.worker worker) address := Or.inl state
      simp only [handOf, packetAt, block_of_shelved aside (worker_shelved owned held)]
  | processed address =>
      have held : Holds server (.worker worker) address := Or.inr state
      simp only [handOf, packetAt, block_of_shelved aside (worker_shelved owned held)]

theorem pending_of_aside {more : List Nat} (owned : Owned server)
    (aside : Aside server after more) :
    packets after.rheap after.msgRecvQueue =
      packets server.rheap server.msgRecvQueue ++ packets after.rheap more := by
  rw [aside.queue, packets_append]
  congr 1
  exact packets_congr fun address waits => block_of_shelved aside (slot_shelved owned waits)

theorem offer_all (queue : Queue Nat Packet) (items : List Packet) (distinct : items.Nodup)
    (fresh : ∀ item ∈ items, item ∉ queue.offered) :
    Relation.ReflTransGen Move queue
      { queue with offered := queue.offered ++ items, pending := queue.pending ++ items } := by
  induction items generalizing queue with
  | nil =>
      rw [List.append_nil, List.append_nil]
  | cons item rest ih =>
      obtain ⟨apart, others⟩ := List.nodup_cons.mp distinct
      have first : Move queue { queue with
          offered := queue.offered ++ [item], pending := queue.pending ++ [item] } :=
        Move.offer item (fresh item List.mem_cons_self)
      have later := ih { queue with
          offered := queue.offered ++ [item], pending := queue.pending ++ [item] } others ?_
      · rw [List.append_assoc, List.append_assoc] at later
        exact Relation.ReflTransGen.head first later
      · intro other member listed
        rcases List.mem_append.mp listed with older | new
        · exact fresh other (List.mem_cons_of_mem item member) older
        · rw [List.mem_singleton.mp new] at member
          exact apart member

theorem queue_nodup (owned : Owned server) : server.msgRecvQueue.Nodup := by
  apply List.nodup_iff_getElem?_ne_getElem?.mpr
  intro first second apart inside same
  have found := List.getElem?_eq_getElem (Nat.lt_trans apart inside)
  have held : Holds server (.slot first) (server.msgRecvQueue[first]) := found
  have also : Holds server (.slot second) (server.msgRecvQueue[first]) := same.symm.trans found
  have equal := owned.exclusive.unique _ _ _ held also
  cases equal
  exact Nat.lt_irrefl first apart

theorem hand_held {worker : Nat} {packet : Packet} {worked : Bool}
    (hand : handOf server.rheap (server.workers worker) = some (packet, worked)) :
    Holds server (.worker worker) packet.1 := by
  cases state : server.workers worker with
  | idle =>
      rw [state] at hand
      cases hand
  | taken address =>
      rw [state] at hand
      obtain ⟨found, located, same⟩ := Option.map_eq_some_iff.mp hand
      obtain ⟨msg, -, placed⟩ := Option.map_eq_some_iff.mp located
      cases same
      cases placed
      exact Or.inl state
  | processed address =>
      rw [state] at hand
      obtain ⟨found, located, same⟩ := Option.map_eq_some_iff.mp hand
      obtain ⟨msg, -, placed⟩ := Option.map_eq_some_iff.mp located
      cases same
      cases placed
      exact Or.inr state

def FreedGone (server : Server) (history : History) : Prop :=
  ∀ packet ∈ history.freed, Buried server packet.1

theorem offers_fresh {more : List Nat} (later : Owned after) (aside : Aside server after more)
    (fair : Fair (work server history)) (gone : FreedGone server history) :
    (packets after.rheap more).Nodup ∧
      ∀ packet ∈ packets after.rheap more, packet ∉ history.offered := by
  have distinct := queue_nodup later
  rw [aside.queue] at distinct
  obtain ⟨-, others, apart⟩ := List.nodup_append.mp distinct
  have queued : ∀ address ∈ more, address ∈ after.msgRecvQueue := by
    intro address member
    rw [aside.queue]
    exact List.mem_append_right _ member
  constructor
  · apply List.Nodup.of_map Prod.fst
    rw [packets_addresses]
    · exact others
    · intro address member
      obtain ⟨msg, shelved⟩ := slot_shelved later (queued address member)
      rw [shelved.content]
      rfl
  · intro packet member listed
    obtain ⟨new, live⟩ := mem_packets.mp member
    have order : history.offered = history.taken.map Prod.snd ++
        packets server.rheap server.msgRecvQueue := fair.order
    rw [order] at listed
    rcases List.mem_append.mp listed with older | waits
    · obtain ⟨⟨worker, found⟩, took, same⟩ := List.mem_map.mp older
      cases same
      rcases fair.accounted worker found took with ⟨worked, hand⟩ | freed
      · have held : Holds after (.worker worker) found.1 := by
          have before : Holds server (.worker worker) found.1 := hand_held hand
          simp only [Holds, aside.workers]
          exact before
        obtain ⟨index, place⟩ := List.mem_iff_getElem?.mp (queued found.1 new)
        have slot : Holds after (.slot index) found.1 := place
        cases later.exclusive.unique _ _ _ held slot
      · have dead := (aside.buried found.1 (gone found freed)).dead
        rw [live] at dead
        cases dead
    · exact apart packet.1 (mem_packets.mp waits).1 packet.1 new rfl

/-- Seen as a queue of work, a step that is not a worker's offers what it hands
over. -/
theorem work_of_aside {more : List Nat} (owned : Owned server) (later : Owned after)
    (aside : Aside server after more) (fair : Fair (work server history))
    (gone : FreedGone server history) (idle : ¬ OfWorker act) :
    Relation.ReflTransGen Move (work server history)
        (work after (history.note server act after)) ∧
      FreedGone after (history.note server act after) := by
  have dropped : after.msgRecvQueue.drop server.msgRecvQueue.length = more := by
    rw [aside.queue, List.drop_left]
  have takesNone : takes server act = [] := by
    cases act <;> first | rfl | exact absurd trivial idle
  have servesNone : serves server act = [] := by
    cases act <;> first | rfl | exact absurd trivial idle
  have freesNone : frees server act = [] := by
    cases act <;> first | rfl | exact absurd trivial idle
  obtain ⟨distinct, fresh⟩ := offers_fresh later aside fair gone
  have moves := offer_all (work server history) (packets after.rheap more) distinct fresh
  constructor
  · have same : work after (history.note server act after) =
        { work server history with
          offered := history.offered ++ packets after.rheap more
          pending := packets server.rheap server.msgRecvQueue ++ packets after.rheap more } := by
      simp only [work, History.note, offers, dropped, takesNone, servesNone, freesNone,
        List.append_nil, pending_of_aside owned aside, aside.workers, Queue.mk.injEq, true_and]
      exact ⟨funext fun worker => hand_of_shelved owned aside worker, trivial⟩
    rw [same]
    exact moves
  · intro packet freed
    have older : packet ∈ history.freed := by
      simpa only [History.note, freesNone, List.append_nil] using freed
    exact aside.buried packet.1 (gone packet older)

theorem offers_none (queue : after.msgRecvQueue.length ≤ server.msgRecvQueue.length) :
    offers server after = [] := by
  rw [offers, List.drop_eq_nil_of_le queue]
  rfl

theorem hands_update (heap : Heap MsgBuf) (workers : Nat → Worker) (worker : Nat)
    (state : Worker) :
    (fun found => handOf heap (Function.update workers worker state found)) =
      Function.update (fun found => handOf heap (workers found)) worker (handOf heap state) := by
  funext found
  by_cases same : found = worker
  · subst same
    rw [Function.update_self, Function.update_self]
  · rw [Function.update_of_ne same, Function.update_of_ne same]

theorem move_of_eq {before next later : Queue Nat Packet} (move : Move before next)
    (same : later = next) : Move before later := by
  rw [same]
  exact move

theorem work_of_take {worker jobbuf : Nat} {rest : List Nat} (owned : Owned server)
    (idle : server.workers worker = .idle) (front : server.msgRecvQueue = jobbuf :: rest)
    (workers : after.workers = Function.update server.workers worker (.taken jobbuf))
    (queue : after.msgRecvQueue = rest) (rheap : after.rheap = server.rheap) :
    Move (work server history) (work after (history.note server (.take worker) after)) := by
  obtain ⟨msg, shelved⟩ := slot_shelved owned (front ▸ List.mem_cons_self)
  have located := packet_at_some shelved.content
  have first : (work server history).pending = (jobbuf, msg) :: packets server.rheap rest := by
    rw [work, front, packets, List.filterMap_cons_some located]
    rfl
  have empty : (work server history).hand worker = none := by
    simp only [work, idle, handOf]
  have none : offers server after = [] :=
    offers_none (by rw [queue, front, List.length_cons]; exact Nat.le_succ _)
  have took : takes server (.take worker) = [(worker, (jobbuf, msg))] := by
    simp only [takes, front, List.take_succ_cons, List.take_zero]
    rw [packets_single shelved.content]
    rfl
  have move := Move.take worker (jobbuf, msg) (packets server.rheap rest) empty first
  have inHand : handOf server.rheap (.taken jobbuf) = some ((jobbuf, msg), false) := by
    rw [handOf, located, Option.map_some]
  have hands := hands_update server.rheap server.workers worker (.taken jobbuf)
  rw [inHand] at hands
  apply move_of_eq move
  simp only [work, History.note, none, took, serves, frees, List.append_nil, queue, rheap,
    workers, hands]

theorem work_of_process {worker jobbuf : Nat} {junk : Nat → Byte} {now : Int}
    (owned : Owned server) (holds : server.workers worker = .taken jobbuf)
    (aside : Aside server after []) {finished : Server}
    (same : finished = { after with
      workers := Function.update server.workers worker (.processed jobbuf) }) :
    Move (work server history)
      (work finished (history.note server (.process worker junk now) finished)) := by
  have held : Holds server (.worker worker) jobbuf := Or.inl holds
  obtain ⟨msg, shelved⟩ := worker_shelved owned held
  have located := packet_at_some shelved.content
  have inHand : (work server history).hand worker = some ((jobbuf, msg), false) := by
    simp only [work, holds, handOf, located, Option.map_some]
  have move := Move.process worker (jobbuf, msg) inHand
  have unchanged : finished.msgRecvQueue = server.msgRecvQueue := by
    rw [same]
    exact aside.queue.trans (List.append_nil _)
  have none : offers server finished = [] := offers_none (congrArg List.length unchanged).le
  have served : serves server (.process worker junk now) =
      [((jobbuf, msg), answerTo server jobbuf junk)] := by
    simp only [serves, holds]
    rw [packets_single shelved.content]
    rfl
  have hands : (fun found => handOf finished.rheap (finished.workers found)) =
      Function.update (work server history).hand worker (some ((jobbuf, msg), true)) := by
    have updated := hands_update after.rheap server.workers worker (.processed jobbuf)
    have kept : (fun found => handOf after.rheap (server.workers found)) =
        (work server history).hand := funext fun found => hand_of_shelved owned aside found
    have content : after.rheap.block jobbuf = some msg :=
      (aside.shelved jobbuf msg shelved).content
    rw [same]
    dsimp only
    rw [updated, kept, handOf, packet_at_some content]
    rfl
  have pending : packets finished.rheap finished.msgRecvQueue =
      packets server.rheap server.msgRecvQueue := by
    have kept := pending_of_aside owned aside
    rw [same]
    exact kept.trans (List.append_nil _)
  apply move_of_eq move
  simp only [work, History.note, none, served, takes, frees, List.append_nil, pending, hands,
    List.map_append, List.map_singleton]

theorem work_of_release {worker jobbuf : Nat} (owned : Owned server)
    (holds : server.workers worker = .processed jobbuf)
    (workers : after.workers = Function.update server.workers worker .idle)
    (queue : after.msgRecvQueue = server.msgRecvQueue)
    (rheap : after.rheap = BlockHeap.free server.rheap jobbuf) :
    Move (work server history) (work after (history.note server (.release worker) after)) := by
  have held : Holds server (.worker worker) jobbuf := Or.inr holds
  obtain ⟨msg, shelved⟩ := worker_shelved owned held
  have located := packet_at_some shelved.content
  have inHand : (work server history).hand worker = some ((jobbuf, msg), true) := by
    simp only [work, holds, handOf, located, Option.map_some]
  have move := Move.free worker (jobbuf, msg) inHand
  have none : offers server after = [] := offers_none (congrArg List.length queue).le
  have freed : frees server (.release worker) = [(jobbuf, msg)] := by
    simp only [frees, holds]
    exact packets_single shelved.content
  have elsewhere : ∀ holder address, holder ≠ .worker worker → Holds server holder address →
      packetAt after.rheap address = packetAt server.rheap address := by
    intro holder address other also
    have apart : address ≠ jobbuf := by
      rintro rfl
      exact other (owned.exclusive.unique _ _ _ also held)
    rw [packetAt, packetAt, rheap, BlockHeap.free_block, if_neg fun both => apart both.2]
  have pending : packets after.rheap after.msgRecvQueue =
      packets server.rheap server.msgRecvQueue := by
    rw [queue]
    apply List.filterMap_congr
    intro address waits
    obtain ⟨index, found⟩ := List.mem_iff_getElem?.mp waits
    apply elsewhere (.slot index) address ?_ found
    intro equal
    cases equal
  have hands : (fun found => handOf after.rheap (after.workers found)) =
      Function.update (work server history).hand worker Option.none := by
    funext found
    rw [workers]
    by_cases same : found = worker
    · rw [same, Function.update_self, Function.update_self]
      rfl
    · rw [Function.update_of_ne same, Function.update_of_ne same]
      have other : BufHolder.worker found ≠ .worker worker := by
        intro equal
        cases equal
        exact same rfl
      simp only [work]
      cases state : server.workers found with
      | idle => rfl
      | taken address =>
          simp only [handOf, elsewhere (.worker found) address other (Or.inl state)]
      | processed address =>
          simp only [handOf, elsewhere (.worker found) address other (Or.inr state)]
  apply move_of_eq move
  simp only [work, History.note, none, freed, takes, serves, List.append_nil, pending, hands]

/-- A step of a worker is a move of the queue of work, and hands nothing over. -/
theorem worker_move (owned : Owned server) (working : OfWorker act)
    (taken : step cfg server act = some after) :
    Move (work server history) (work after (history.note server act after)) ∧
      offers server after = [] := by
  cases stepped_of_step taken with
  | take worker jobbuf rest idle front =>
      refine ⟨work_of_take owned idle front rfl rfl rfl, offers_none ?_⟩
      rw [front]
      exact Nat.le_succ _
  | process worker jobbuf junk now holds =>
      have aside := aside_process_message cfg server jobbuf junk now
      refine ⟨work_of_process owned holds aside rfl, offers_none ?_⟩
      rw [aside.queue, List.append_nil]
  | release worker jobbuf holds =>
      exact ⟨work_of_release owned holds rfl rfl rfl, offers_none (Nat.le_refl _)⟩
  | _ => exact working.elim

/-- A step is a sequence of moves of the queue of work. -/
theorem work_step (attributed : Attributed server) (sound : Sound server)
    (receiving : Receiving server) (fair : Fair (work server history))
    (gone : FreedGone server history) (disciplined : Disciplined server act)
    (taken : step cfg server act = some after) :
    Relation.ReflTransGen Move (work server history)
        (work after (history.note server act after)) ∧
      FreedGone after (history.note server act after) := by
  have later := (sound_step attributed sound disciplined taken).owned
  by_cases working : OfWorker act
  case neg =>
    obtain ⟨more, aside, -⟩ := aside_step attributed receiving disciplined working taken
    exact work_of_aside sound.owned later aside fair gone working
  refine ⟨Relation.ReflTransGen.single (worker_move sound.owned working taken).1, ?_⟩
  cases stepped_of_step taken with
  | take worker jobbuf rest idle front =>
      intro packet freed
      have older : packet ∈ history.freed := by
        simpa only [History.note, frees, List.append_nil] using freed
      exact ⟨(gone packet older).old, (gone packet older).dead⟩
  | process worker jobbuf junk now holds =>
      have aside := aside_process_message cfg server jobbuf junk now
      intro packet freed
      have older : packet ∈ history.freed := by
        simpa only [History.note, frees, List.append_nil] using freed
      have still := aside.buried packet.1 (gone packet older)
      exact ⟨still.old, still.dead⟩
  | release worker jobbuf holds =>
      have held : Holds server (.worker worker) jobbuf := Or.inr holds
      obtain ⟨msg, shelved⟩ := worker_shelved sound.owned held
      have bound : ∀ {address : Nat}, address < server.rheap.next →
          address < (BlockHeap.free server.rheap jobbuf).next := by
        intro address old
        rw [BlockHeap.free_next]
        exact old
      intro packet freed
      simp only [History.note, frees, holds, packets_single shelved.content,
        List.mem_append, List.mem_singleton] at freed
      rcases freed with older | new
      · have still := gone packet older
        exact ⟨bound still.old, (BlockHeap.free_block _ _ _).trans (by rw [still.dead, ite_self])⟩
      · rw [new]
        exact ⟨bound shelved.old,
          (BlockHeap.free_block _ _ _).trans (if_pos ⟨shelved.notNull, rfl⟩)⟩
  | _ => exact working.elim

end Steps

def requests (history : History) (o : OccId) : List (List Byte) :=
  (history.offered.filter (ofOcc o)).map Delivery.packetBytes

section Streams

variable {cfg : Config} {server after : Server} {history : History} {act : Act}

theorem packets_contents {heap : Heap MsgBuf} {queue : List Nat} {msgs : List MsgBuf}
    (contents : queue.map heap.block = msgs.map some) :
    (packets heap queue).map Prod.snd = msgs := by
  induction queue generalizing msgs with
  | nil =>
      cases msgs with
      | nil => rfl
      | cons msg rest => cases contents
  | cons address others ih =>
      cases msgs with
      | nil => cases contents
      | cons msg rest =>
          rw [List.map_cons, List.map_cons, List.cons.injEq] at contents
          obtain ⟨first, later⟩ := contents
          rw [packets, List.filterMap_cons_some (packet_at_some first), List.map_cons]
          exact congrArg (msg :: ·) (ih later)

theorem offers_of_reads (attributed : Attributed server) (sound : Sound server)
    (receiving : Receiving server) (disciplined : Disciplined server act)
    (taken : step cfg server act = some after) (quiet : ¬ Reads act) :
    offers server after = [] := by
  by_cases working : OfWorker act
  · have moved : Move (work server History.empty)
        (work after (History.empty.note server act after)) ∧ offers server after = [] :=
      worker_move sound.owned working taken
    exact moved.2
  · obtain ⟨more, aside, none⟩ := aside_step attributed receiving disciplined working taken
    apply offers_none
    rw [aside.queue, none quiet, List.append_nil]

theorem offers_of_handed {c : ConnId} {revents : BitVec 32} {recv : RecvOutcome}
    {send : SendOutcome} {ctlOk : Bool} {junk : Nat → Byte} {nowMs : Nat} {now : Int}
    (none : handed c server (.event c revents recv send ctlOk junk nowMs now) after = []) :
    offers server after = [] := by
  rw [handed, if_pos rfl, List.map_eq_nil_iff] at none
  rw [offers, none]
  rfl

/-- The messages that are handed over in a step in which `c` receives bytes that
complete packages carry the stamp of `c`. -/
theorem offers_feeds {c : ConnId} {bytes rest : List Byte} (feeds : Feeds server act after c bytes)
    (holding : Holding server c rest) :
    (offers server after).map Prod.snd =
        (emitted (rest ++ bytes)).map (fun pkg => { hdr := stampNow server c, pkg := pkg }) ∧
      handed c server act after = (offers server after).map fun packet => some packet.2 := by
  obtain ⟨⟨bufs, appended, contents⟩, -⟩ := feeds.fed.parsed rest holding
  have dropped : after.msgRecvQueue.drop server.msgRecvQueue.length = bufs := by
    rw [appended, List.drop_left]
  have msgs : bufs.map after.rheap.block = ((emitted (rest ++ bytes)).map
      fun pkg => ({ hdr := stampNow server c, pkg := pkg } : MsgBuf)).map some := by
    rw [contents, List.map_map]
    rfl
  have seen := packets_contents msgs
  rw [← dropped] at seen
  refine ⟨seen, ?_⟩
  have mapped : (offers server after).map (fun packet => some packet.2) =
      ((offers server after).map Prod.snd).map some := by
    rw [List.map_map]
    rfl
  rw [feeds.handed, if_pos rfl, dropped, msgs, mapped]
  exact congrArg (List.map some) seen.symm

structure Delivers (server : Server) (act : Act) (after : Server) : Prop where
  stamped : ∀ packet ∈ offers server after, ∃ c,
    server.ghost.occ c ≠ none ∧ packet.2.hdr = stampNow server c
  handed : ∀ c, server.ghost.occ c ≠ none → handed c server act after =
    ((offers server after).filter fun packet => decide (packet.2.hdr.occ = server.ghost.occ c)).map
      fun packet => some packet.2

theorem step_delivers (attributed : Attributed server) (sound : Sound server)
    (receiving : Receiving server) (disciplined : Disciplined server act)
    (taken : step cfg server act = some after) : Delivers server act after := by
  have nothing : (∀ c, ByteStream.handed c server act after = []) →
      Delivers server act after := by
    intro none
    have empty : offers server after = [] := by
      by_cases reads : Reads act
      · cases act with
        | event c => exact offers_of_handed (none c)
        | _ => exact reads.elim
      · exact offers_of_reads attributed sound receiving disciplined taken reads
    refine ⟨fun packet member => ?_, fun c _ => ?_⟩
    · rw [empty] at member
      cases member
    · rw [none c, empty]
      rfl
  cases step_receives attributed sound receiving disciplined taken with
  | silent silent => exact nothing silent.handed
  | floods d bytes enabled floods => exact nothing floods.handed
  | feeds d bytes feeds =>
      obtain ⟨rest, holding⟩ := receiving.holds d feeds.live
      obtain ⟨contents, handedOver⟩ := offers_feeds feeds holding
      have stamp : ∀ packet ∈ offers server after, packet.2.hdr = stampNow server d := by
        intro packet member
        have listed := List.mem_map_of_mem (f := Prod.snd) member
        rw [contents] at listed
        obtain ⟨pkg, -, same⟩ := List.mem_map.mp listed
        rw [← same]
      refine ⟨fun packet member => ⟨d, feeds.live, stamp packet member⟩, fun c live => ?_⟩
      by_cases same : d = c
      · subst same
        rw [handedOver, List.filter_eq_self.mpr]
        intro packet member
        rw [stamp packet member]
        exact decide_eq_true rfl
      · rw [feeds.handed, if_neg same, List.filter_eq_nil_iff.mpr]
        · rfl
        · intro packet member owned
          rw [stamp packet member] at owned
          obtain ⟨o, serves⟩ := Option.ne_none_iff_exists'.mp live
          have shared : server.ghost.occ d = some o :=
            (of_decide_eq_true owned).trans serves
          exact same ((SendBacklog.owner_unique attributed.settled serves).mp shared)

/-- An occupancy that is open was open before, or is new. -/
theorem occupancy_origin (attributed : Attributed server) (sound : Sound server)
    (receiving : Receiving server) (disciplined : Disciplined server act)
    (taken : step cfg server act = some after) {c : ConnId} {o : OccId}
    (serves : after.ghost.occ c = some o) :
    server.ghost.occ c = some o ∨ server.ghost.nextOcc ≤ o := by
  cases step_receives attributed sound receiving disciplined taken with
  | silent silent =>
      rcases silent.quiet.lives c o serves with ⟨served, -⟩ | ⟨new, -⟩
      · exact Or.inl served
      · exact Or.inr new
  | feeds d bytes feeds =>
      rw [feeds.fed.occ] at serves
      exact Or.inl serves
  | floods d bytes enabled floods =>
      rw [floods.flooded.occ] at serves
      exact Or.inl (serves_elsewhere serves).2

theorem arrives_live (settled : QuarantinePool.Settled (poolView server)) {c : ConnId} {o : OccId}
    (serves : server.ghost.occ c = some o) :
    arrives server act o = (received c act).flatten := by
  cases act with
  | event d revents recv send ctlOk junk nowMs now =>
      rw [arrives]
      split
      case isTrue shared =>
        rw [(SendBacklog.owner_unique settled serves).mp shared]
      case isFalse apart =>
        have other : d ≠ c := by
          rintro rfl
          exact apart serves
        cases recv <;> simp [received, other]
  | _ => rfl

theorem arrives_ended {o : OccId} (ended : ∀ c, server.ghost.occ c ≠ some o) :
    arrives server act o = [] := by
  cases act with
  | event c => exact if_neg (ended c)
  | _ => rfl

end Streams

/-- What the streams and the messages handed over have to do with each other. -/
structure Streams (cfg : Config) (server : Server) (history : History) : Prop where
  stamped : ∀ packet ∈ history.offered, Stamped (poolView server) packet.2.hdr
  unseen : ∀ o, server.ghost.nextOcc ≤ o → history.stream o = []
  live : ∀ c o, server.ghost.occ c = some o →
    requests history o = emitted (history.stream o) ∧
      Holding server c (cut packages (history.stream o)).2
  parsed : ∀ o, requests history o <+: emitted (history.stream o)
  whole : cfg.floodAkEnable ≠ 1 → ∀ o, requests history o = emitted (history.stream o)

structure Known (cfg : Config) (server : Server) (history : History) : Prop where
  attributed : Attributed server
  sound : Sound server
  receiving : Receiving server
  fair : Fair (work server history)
  gone : FreedGone server history
  streams : Streams cfg server history

theorem emitted_nil : emitted [] = [] := by
  rw [emitted, StreamSplitter.cut_nil]
  rfl

section Runs

variable {cfg : Config} {server after : Server} {history : History} {act : Act}

theorem fresh_known {server : Server} (fresh : Fresh server) (cfg : Config) :
    Known cfg server History.empty where
  attributed := fresh_attributed fresh
  sound := RecvOwnership.fresh_sound fresh
  receiving := fresh_receiving fresh
  fair := by
    obtain ⟨listenFds, -, -, rfl⟩ := fresh
    constructor
    case order => rfl
    case distinct | processedOnce | freedOnce => exact List.nodup_nil
    case held =>
      intro worker item worked holds
      cases holds
    case accounted =>
      intro worker item listed
      cases listed
    case processedFirst | takenFirst =>
      intro item listed
      cases listed
  gone := by
    intro packet listed
    cases listed
  streams := by
    obtain ⟨listenFds, -, -, rfl⟩ := fresh
    constructor
    case stamped =>
      intro packet listed
      cases listed
    case unseen =>
      intro o _
      rfl
    case live =>
      intro c o serves
      cases serves
    case parsed =>
      intro o
      exact List.nil_prefix
    case whole =>
      intro _ o
      exact emitted_nil.symm

theorem requests_note (o : OccId) :
    requests (history.note server act after) o =
      requests history o ++ ((offers server after).filter (ofOcc o)).map Delivery.packetBytes := by
  simp only [requests, History.note, List.filter_append, List.map_append]

/-- What is handed over for a connection, from what is handed over. -/
theorem requests_of_handed {c : ConnId} {o : OccId} (delivers : Delivers server act after)
    (serves : server.ghost.occ c = some o) {pkgs : List (List Byte)} {hdr : MsgHeader}
    (handedOver : handed c server act after = pkgs.map fun pkg => some { hdr := hdr, pkg := pkg }) :
    ((offers server after).filter (ofOcc o)).map Delivery.packetBytes = pkgs := by
  have listed := delivers.handed c (by rw [serves]; exact Option.some_ne_none o)
  rw [serves, handedOver] at listed
  have bytes := congrArg (List.map fun found : Option MsgBuf => (found.map MsgBuf.pkg).getD [])
    listed
  rw [List.map_map, List.map_map] at bytes
  have left : pkgs.map ((fun found : Option MsgBuf => (found.map MsgBuf.pkg).getD []) ∘
      fun pkg => some { hdr := hdr, pkg := pkg }) = pkgs := List.map_id pkgs
  rw [left] at bytes
  exact bytes.symm

/-- Nothing is handed over for an occupancy that is not open. -/
theorem offers_ended {o : OccId} (delivers : Delivers server act after)
    (ended : ∀ c, server.ghost.occ c ≠ some o) : (offers server after).filter (ofOcc o) = [] := by
  apply List.filter_eq_nil_iff.mpr
  intro packet member owned
  obtain ⟨c, -, stamp⟩ := delivers.stamped packet member
  have shared : packet.2.hdr.occ = some o := of_decide_eq_true owned
  rw [stamp] at shared
  exact ended c shared

/-- What a step adds to the messages of an open occupancy. -/
theorem requests_live (known : Known cfg server history) (disciplined : Disciplined server act)
    (taken : step cfg server act = some after) {c : ConnId} {o : OccId}
    (serves : server.ghost.occ c = some o) :
    (requests (history.note server act after) o =
        emitted ((history.note server act after).stream o) ∧
      (after.ghost.occ c = some o →
        Holding after c (cut packages ((history.note server act after).stream o)).2)) ∨
      cfg.floodAkEnable = 1 ∧ after.ghost.occ c = none ∧
        requests (history.note server act after) o = requests history o := by
  obtain ⟨attributed, sound, receiving, -, -, streams⟩ := known
  obtain ⟨before, holding⟩ := streams.live c o serves
  have delivers := step_delivers attributed sound receiving disciplined taken
  have stream : (history.note server act after).stream o =
      history.stream o ++ (received c act).flatten :=
    congrArg (history.stream o ++ ·) (arrives_live attributed.settled serves)
  rw [requests_note, stream]
  rcases step_parses attributed sound receiving disciplined taken serves holding with
    ⟨handedOver, goesOn⟩ | ⟨enabled, ended, handedOver⟩
  · left
    rw [requests_of_handed delivers serves handedOver, before,
      emitted_append (history.stream o)]
    refine ⟨rfl, fun still => ?_⟩
    rw [StreamSplitter.cut_append]
    exact goesOn still
  · right
    have nothing : handed c server act after =
        ([] : List (List Byte)).map fun pkg => some { hdr := stampNow server c, pkg := pkg } :=
      handedOver
    rw [requests_of_handed delivers serves nothing, List.append_nil]
    exact ⟨enabled, ended, rfl⟩

/-- A step adds nothing to the messages of an occupancy that is not open. -/
theorem requests_ended (known : Known cfg server history) (disciplined : Disciplined server act)
    (taken : step cfg server act = some after) {o : OccId}
    (ended : ∀ c, server.ghost.occ c ≠ some o) :
    (history.note server act after).stream o = history.stream o ∧
      requests (history.note server act after) o = requests history o := by
  have delivers := step_delivers known.attributed known.sound known.receiving disciplined taken
  rw [requests_note, offers_ended delivers ended, List.map_nil, List.append_nil]
  refine ⟨?_, rfl⟩
  have nothing : arrives server act o = [] := arrives_ended ended
  exact (congrArg (history.stream o ++ ·) nothing).trans (List.append_nil _)

/-- An occupancy that begins has nothing received and nothing handed over. -/
theorem live_of_new (reached : Reachable cfg Disciplined server)
    (streams : Streams cfg server history) (disciplined : Disciplined server act)
    (taken : step cfg server act = some after) {c : ConnId} {o : OccId}
    (new : server.ghost.nextOcc ≤ o) (ended : ∀ c, server.ghost.occ c ≠ some o)
    (serves : after.ghost.occ c = some o) :
    requests history o = emitted (history.stream o) ∧
      Holding after c (cut packages (history.stream o)).2 := by
  have nothing := streams.unseen o new
  have prefixed := streams.parsed o
  rw [nothing, emitted_nil] at prefixed
  rw [nothing, emitted_nil, StreamSplitter.cut_nil]
  exact ⟨List.prefix_nil.mp prefixed,
    issued_holding reached disciplined taken (ended c) serves⟩

theorem streams_step (reached : Reachable cfg Disciplined server)
    (known : Known cfg server history) (disciplined : Disciplined server act)
    (taken : step cfg server act = some after) :
    Streams cfg after (history.note server act after) := by
  have settled := known.attributed.settled
  have started := (settled_stamps settled).owner_lt
  have effect := effect_step known.attributed disciplined taken
  have delivers := step_delivers known.attributed known.sound known.receiving disciplined taken
  have streams := known.streams
  have unopened : ∀ o, server.ghost.nextOcc ≤ o → ∀ c, server.ghost.occ c ≠ some o := by
    intro o new c serves
    exact absurd (started c o serves) (Nat.not_lt.mpr new)
  constructor
  case stamped =>
    intro packet listed
    rcases List.mem_append.mp listed with older | new
    · exact stamped_keeps effect.keeps (streams.stamped packet older)
    · obtain ⟨c, live, stamp⟩ := delivers.stamped packet new
      obtain ⟨o, serves⟩ := Option.ne_none_iff_exists'.mp live
      rw [stamp]
      exact stamped_keeps effect.keeps (stamp_now_stamped (settled_stamps settled) serves)
  case unseen =>
    intro o new
    have before : server.ghost.nextOcc ≤ o := Nat.le_trans effect.keeps.1 new
    have same := requests_ended known disciplined taken (unopened o before)
    exact same.1.trans (streams.unseen o before)
  case live =>
    intro c o serves
    rcases occupancy_origin known.attributed known.sound known.receiving disciplined taken
      serves with served | new
    · rcases requests_live known disciplined taken served with ⟨all, goesOn⟩ | ⟨-, ended, -⟩
      · exact ⟨all, goesOn serves⟩
      · rw [ended] at serves
        cases serves
    · have same := requests_ended known disciplined taken (unopened o new)
      rw [same.1, same.2]
      exact live_of_new reached streams disciplined taken new (unopened o new) serves
  case parsed =>
    intro o
    by_cases live : ∃ c, server.ghost.occ c = some o
    · obtain ⟨c, served⟩ := live
      rcases requests_live known disciplined taken served with ⟨all, -⟩ | ⟨-, -, same⟩
      · rw [all]
      · rw [same, (streams.live c o served).1]
        exact (emitted_append (history.stream o) (arrives server act o)) ▸ List.prefix_append _ _
    · have same := requests_ended known disciplined taken (not_exists.mp live)
      rw [same.1, same.2]
      exact streams.parsed o
  case whole =>
    intro flood o
    by_cases live : ∃ c, server.ghost.occ c = some o
    · obtain ⟨c, served⟩ := live
      rcases requests_live known disciplined taken served with ⟨all, -⟩ | ⟨enabled, -, -⟩
      · exact all
      · exact absurd enabled flood
    · have same := requests_ended known disciplined taken (not_exists.mp live)
      rw [same.1, same.2]
      exact streams.whole flood o

theorem fair_moves {before after : Queue Nat Packet} (fair : Fair before)
    (moves : Relation.ReflTransGen Move before after) : Fair after := by
  induction moves with
  | refl => exact fair
  | tail _ move ih => exact WorkQueue.fair_move ih move

theorem known_step (reached : Reachable cfg Disciplined server)
    (known : Known cfg server history) (disciplined : Disciplined server act)
    (taken : step cfg server act = some after) :
    Known cfg after (history.note server act after) := by
  have streams := streams_step reached known disciplined taken
  obtain ⟨attributed, sound, receiving, fair, gone, -⟩ := known
  obtain ⟨moves, later⟩ := work_step attributed sound receiving fair gone disciplined taken
  exact
    { attributed := attributed_step attributed disciplined taken
      sound := sound_step attributed sound disciplined taken
      receiving := receiving_step attributed sound receiving disciplined taken
      fair := fair_moves fair moves
      gone := later
      streams := streams }

theorem logged_known {server : Server} {history : History}
    (logged : Logged cfg Disciplined server history) : Known cfg server history := by
  induction logged with
  | start server fresh => exact fresh_known fresh cfg
  | step act before disciplined taken ih =>
      exact known_step (logged_reachable before) ih disciplined taken

end Runs

theorem logged_mono {cfg : Config} {allowed wider : Server → Act → Prop}
    (weaken : ∀ server act, allowed server act → wider server act) {server : Server}
    {history : History} (logged : Logged cfg allowed server history) :
    Logged cfg wider server history := by
  induction logged with
  | start server fresh => exact Logged.start server fresh
  | step act _ permitted taken ih => exact Logged.step act ih (weaken _ act permitted) taken

structure Conserved (cfg : Config) (server : Server) (history : History) : Prop where
  /-- what is handed over for a client are packages of its stream, in order -/
  parsed : ∀ o, requests history o <+: emitted (history.stream o)
  /-- and all of them, unless the connection was closed for a flood -/
  whole : ∀ o, (cfg.floodAkEnable ≠ 1 ∨ ∃ c, server.ghost.occ c = some o) →
    requests history o = emitted (history.stream o)
  /-- each message belongs to a client -/
  owned : ∀ packet ∈ history.offered, Stamped (poolView server) packet.2.hdr
  distinct : history.offered.Nodup
  /-- messages are taken in the order in which they were handed over -/
  inOrder : history.offered =
    history.taken.map Prod.snd ++ packets server.rheap server.msgRecvQueue
  /-- each is processed, in the hand of a worker who has not processed it, or waits -/
  places : ∃ held : List Packet,
    (∀ packet, packet ∈ held ↔ ∃ worker,
        handOf server.rheap (server.workers worker) = some (packet, false)) ∧
      history.offered.Perm (history.served.map Prod.fst ++ held ++
        packets server.rheap server.msgRecvQueue)
  /-- a message is freed once, after it was processed, and its block is gone -/
  freed : history.freed.Nodup ∧ ∀ packet ∈ history.freed,
    packet ∈ history.served.map Prod.fst ∧ server.rheap.block packet.1 = none

/-- In every disciplined run each complete package of a client's stream becomes
one message, which one worker takes, processes and frees. -/
theorem messages_conserved (cfg : Config) {server : Server} {history : History}
    (logged : Logged cfg Disciplined server history) : Conserved cfg server history := by
  obtain ⟨attributed, sound, receiving, fair, gone, streams⟩ := logged_known logged
  constructor
  case parsed => exact streams.parsed
  case whole =>
    intro o condition
    rcases condition with flood | ⟨c, serves⟩
    · exact streams.whole flood o
    · exact (streams.live c o serves).1
  case owned => exact streams.stamped
  case distinct => exact fair.distinct
  case inOrder => exact fair.order
  case places => exact WorkQueue.fair_places fair
  case freed =>
    constructor
    · exact fair.freedOnce
    · intro packet freed
      exact ⟨fair.processedFirst packet freed, (gone packet freed).dead⟩

def logStep (cfg : Config) (allowed : Server → Act → Prop)
    [∀ server act, Decidable (allowed server act)] (state : Server × History) (act : Act) :
    Option (Server × History) :=
  if allowed state.1 act then
    (step cfg state.1 act).map fun after => (after, state.2.note state.1 act after)
  else none

def logRun (cfg : Config) (allowed : Server → Act → Prop)
    [∀ server act, Decidable (allowed server act)] : Server × History → List Act →
      Option (Server × History)
  | state, [] => some state
  | state, act :: rest =>
      match logStep cfg allowed state act with
      | none => none
      | some next => logRun cfg allowed next rest

theorem logged_of_run {cfg : Config} {allowed : Server → Act → Prop}
    [∀ server act, Decidable (allowed server act)] {acts : List Act}
    {state last : Server × History} (logged : Logged cfg allowed state.1 state.2)
    (executed : logRun cfg allowed state acts = some last) :
    Logged cfg allowed last.1 last.2 := by
  induction acts generalizing state with
  | nil =>
      cases executed
      exact logged
  | cons act rest ih =>
      unfold logRun at executed
      split at executed
      case h_1 => cases executed
      case h_2 next noted =>
        unfold logStep at noted
        split at noted
        case isTrue permitted =>
          obtain ⟨after, taken, rfl⟩ := Option.map_eq_some_iff.mp noted
          exact ih (Logged.step act logged permitted taken) executed
        case isFalse => cases noted

def atStart : Server × History := (Server.construct [3], History.empty)

/-- What a run shows of its last state and history holds in a logged run. -/
theorem logged_of_seen {cfg : Config} {allowed : Server → Act → Prop}
    [∀ server act, Decidable (allowed server act)] {acts : List Act} {Value : Type}
    {look : Server × History → Value} {value : Value}
    (seen : (logRun cfg allowed atStart acts).map look = some value) :
    ∃ server history, Logged cfg allowed server history ∧ look (server, history) = value := by
  obtain ⟨last, executed, same⟩ := Option.map_eq_some_iff.mp seen
  have fresh : Fresh (Server.construct [3]) := ⟨[3], by simp, by simp, rfl⟩
  exact ⟨last.1, last.2, logged_of_run (Logged.start _ fresh) executed, same⟩

/-- A package that comes in two pieces, of which one worker has taken the
message. -/
theorem messages_conserved_sample :
    ∃ server history, history.stream 0 = encodeHeader 8 0 0 ∧
      requests history 0 = [encodeHeader 8 0 0] ∧ history.taken.length = 1 ∧
      Conserved unflooded server history := by
  have seen : (logRun unflooded Disciplined atStart
      [.epollInit (fun _ => true) 1000, .accept 0 [.ok 5] true true 1001,
        recvBytes ((encodeHeader 8 0 0).take 3), recvBytes ((encodeHeader 8 0 0).drop 3),
        .take 0]).map
      (fun state => (state.2.stream 0, requests state.2 0, state.2.taken.length)) =
        some (encodeHeader 8 0 0, [encodeHeader 8 0 0], 1) := by
    decide
  obtain ⟨server, history, logged, same⟩ := logged_of_seen seen
  simp only [Prod.mk.injEq] at same
  obtain ⟨stream, requested, took⟩ := same
  exact ⟨server, history, stream, requested, took, messages_conserved unflooded logged⟩

end NgxServer.Traffic
