import NgxServer.Clients

/-!
# Every client has its timer record

A record is entered when a client is accepted, entered again when the monitor
takes it out, and goes when the client is closed. Records are told apart by the
occupancy they were stamped in: those that stand for clients name each client
once, whatever the monitor has in its hands.
-/

namespace NgxServer.TimerCoverage

open NgxServer.Comm NgxServer.State NgxServer.TimerQueue NgxServer.Logic NgxServer.System
open NgxServer.Frames NgxServer.PoolRefinement NgxServer.Occupancy NgxServer.Session
open NgxServer.TimerClock NgxServer.TimerDrain NgxServer.Clients

set_option autoImplicit false

def tagOf (server : Server) (address : Nat) : Option OccId :=
  (server.theap.block address).bind MsgHeader.occ

def mapTags (server : Server) : List (Option OccId) :=
  server.timerQueuemap.map fun entry => tagOf server entry.2

/-- The records that stand for clients. With `m_ifTimeOutKick` a record in the
hands of the monitor is the only one of its client. -/
def bookTags (cfg : Config) (hand : List Nat) (server : Server) : List (Option OccId) :=
  if cfg.ifTimeOutKick = 1 then mapTags server ++ hand.map (tagOf server) else mapTags server

structure Covered (cfg : Config) (hand : List Nat) (server : Server) : Prop where
  filed : Filed hand server
  once : (bookTags cfg hand server).Nodup
  complete : ∀ c o, server.ghost.occ c = some o → some o ∈ bookTags cfg hand server
  sound : ∀ tag ∈ mapTags server, ∃ c o, tag = some o ∧ server.ghost.occ c = some o

section Steps

variable {cfg : Config} {hand : List Nat} {server after : Server}

theorem book_tags_of_map (cfg : Config) {entries : List (Option OccId)}
    (same : mapTags after = entries)
    (held : ∀ address ∈ hand, tagOf after address = tagOf server address) :
    bookTags cfg hand after =
      if cfg.ifTimeOutKick = 1 then entries ++ hand.map (tagOf server) else entries := by
  rw [bookTags, same, List.map_congr_left held]

theorem covered_of_clock (covered : Covered cfg hand server) (same : clock after = clock server)
    (owner : after.ghost.occ = server.ghost.occ) : Covered cfg hand after := by
  have entries : after.timerQueuemap = server.timerQueuemap := congrArg Clock.timerQueuemap same
  have theap : after.theap = server.theap := congrArg Clock.theap same
  have tags : tagOf after = tagOf server := by
    funext address
    rw [tagOf, tagOf, theap]
  have map : mapTags after = mapTags server := by rw [mapTags, mapTags, entries, tags]
  have books : bookTags cfg hand after = bookTags cfg hand server := by
    rw [bookTags, bookTags, map, tags]
  refine ⟨filed_of_clock same covered.filed, ?_, fun c o serves => ?_, fun tag member => ?_⟩
  · rw [books]
    exact covered.once
  · rw [books]
    exact covered.complete c o (owner ▸ serves)
  · rw [owner]
    exact covered.sound tag (map ▸ member)

/-- A record stamped in the occupancy of a client names that client. -/
def Recorded (server : Server) : Prop :=
  ∀ address record c o, server.theap.block address = some record → record.occ = some o →
    server.ghost.occ c = some o → record.pConn = c

theorem attributed_recorded (attributed : Attributed server) : Recorded server := by
  intro address record c o live tagged serves
  obtain ⟨p, -, occ, stamp⟩ := attributed.records record ⟨address, live⟩
  have same : o = p := Option.some.inj (tagged.symm.trans occ)
  subst same
  have current := (settled_stamps attributed.settled).current c o serves
  rw [stamp] at current
  exact congrArg Prod.fst current

theorem recorded_of_clock (recorded : Recorded server) (same : clock after = clock server)
    (owner : after.ghost.occ = server.ghost.occ) : Recorded after := by
  have theap : after.theap = server.theap := congrArg Clock.theap same
  intro address record c o live tagged serves
  exact recorded address record c o (theap ▸ live) tagged (owner ▸ serves)

/-- What is held after some records were freed keeps its tag. -/
theorem tag_kept (filed : Filed hand after)
    (blocks : ∀ address record, after.theap.block address = some record →
      server.theap.block address = some record)
    {address : Nat} (member : address ∈ held hand after) :
    tagOf after address = tagOf server address := by
  obtain ⟨record, live⟩ := Option.isSome_iff_exists.mp ((filed.live address).mpr member)
  rw [tagOf, tagOf, live, blocks address record live]

/-- An entry is that of a client exactly if its record names the connection. -/
theorem entry_tag (recorded : Recorded server) (covered : Covered cfg hand server)
    {entry : Int × Nat} (member : entry ∈ server.timerQueuemap) (c : ConnId) :
    recordOf server c entry = true ↔ ∃ o, tagOf server entry.2 = some o ∧
      server.ghost.occ c = some o := by
  obtain ⟨d, o, tagged, serves⟩ := covered.sound _ (List.mem_map_of_mem member)
  obtain ⟨record, live, occ⟩ := Option.bind_eq_some_iff.mp tagged
  have names := recorded _ record d o live occ serves
  have reads : recordOf server c entry = (record.pConn == c) := by rw [recordOf, live]
  rw [reads, beq_iff_eq, names]
  constructor
  · rintro rfl
    exact ⟨o, tagged, serves⟩
  · rintro ⟨p, sameTag, serving⟩
    rw [tagged] at sameTag
    cases sameTag
    exact names.symm.trans (recorded _ record c o live occ serving)

/-- The entry of another client is not among those that go. -/
theorem entry_stays {c d : ConnId} {o : OccId} (recorded : Recorded server)
    (covered : Covered cfg hand server) (different : d ≠ c) (serves : server.ghost.occ d = some o)
    (inMap : some o ∈ mapTags server) :
    some o ∈ (server.timerQueuemap.filter fun entry => !recordOf server c entry).map
      fun entry => tagOf server entry.2 := by
  obtain ⟨entry, member, tagged⟩ := List.mem_map.mp inMap
  refine List.mem_map.mpr ⟨entry, List.mem_filter.mpr ⟨member, ?_⟩, tagged⟩
  rw [Bool.not_eq_true', Bool.eq_false_iff]
  intro names
  obtain ⟨p, tag, owns⟩ := (entry_tag recorded covered member c).mp names
  rw [tagged] at tag
  cases tag
  obtain ⟨record, live, occ⟩ := Option.bind_eq_some_iff.mp tagged
  exact different ((recorded _ record d o live occ serves).symm.trans
    (recorded _ record c o live occ owns))

/-- When the map loses tags and the hand keeps its own, the books lose those tags. -/
theorem book_tags_fewer {after : Server} {entries : List (Option OccId)}
    (books : bookTags cfg hand after =
      if cfg.ifTimeOutKick = 1 then entries ++ hand.map (tagOf server) else entries)
    (fewer : entries.Sublist (mapTags server)) :
    (bookTags cfg hand after).Sublist (bookTags cfg hand server) := by
  rw [books, bookTags]
  split
  · exact fewer.append_right _
  · exact fewer

theorem book_tags_stay {after : Server} {entries : List (Option OccId)}
    (books : bookTags cfg hand after =
      if cfg.ifTimeOutKick = 1 then entries ++ hand.map (tagOf server) else entries)
    {tag : Option OccId} (stays : tag ∈ mapTags server → tag ∈ entries)
    (listed : tag ∈ bookTags cfg hand server) : tag ∈ bookTags cfg hand after := by
  rw [bookTags] at listed
  rw [books]
  split at listed
  case isTrue kick =>
    rw [if_pos kick, List.mem_append]
    exact (List.mem_append.mp listed).imp_left stays
  case isFalse renew =>
    rw [if_neg renew]
    exact stays listed

theorem covered_left {c : ConnId} (recorded : Recorded server)
    (covered : Covered cfg hand server) (closed : Left server after c) :
    Covered cfg hand after := by
  have filed := closed.filed hand covered.filed
  have kept : ∀ address ∈ held hand after, tagOf after address = tagOf server address :=
    fun address member => tag_kept filed closed.blocks member
  have map : mapTags after =
      (server.timerQueuemap.filter fun entry => !recordOf server c entry).map
        fun entry => tagOf server entry.2 := by
    rw [← closed.entries, mapTags]
    refine List.map_congr_left fun entry member => kept entry.2 ?_
    exact List.mem_append_left hand (List.mem_map_of_mem member)
  have books := book_tags_of_map cfg map
    (fun address member => kept address (List.mem_append_right _ member))
  have fewer : List.Sublist ((server.timerQueuemap.filter fun entry =>
      !recordOf server c entry).map fun entry => tagOf server entry.2) (mapTags server) :=
    List.filter_sublist.map _
  have others : ∀ d, d ≠ c → after.ghost.occ d = server.ghost.occ d := by
    intro d different
    rw [closed.owner]
    exact Function.update_of_ne different _ _
  refine ⟨filed, ?_, fun d o serves => ?_, fun tag member => ?_⟩
  · exact covered.once.sublist (book_tags_fewer books fewer)
  · have different : d ≠ c := by
      rintro rfl
      rw [closed.owner, Function.update_self] at serves
      cases serves
    rw [others d different] at serves
    have stays := entry_stays recorded covered different serves
    exact book_tags_stay books stays (covered.complete d o serves)
  · rw [map] at member
    obtain ⟨entry, inside, rfl⟩ := List.mem_map.mp member
    obtain ⟨present, stays⟩ := List.mem_filter.mp inside
    obtain ⟨d, o, tagged, serves⟩ := covered.sound _ (List.mem_map_of_mem present)
    refine ⟨d, o, tagged, ?_⟩
    rw [others d, serves]
    rintro rfl
    rw [Bool.not_eq_true', Bool.eq_false_iff] at stays
    exact stays ((entry_tag recorded covered present d).mpr ⟨o, tagged, serves⟩)

theorem tag_started (attributed : Attributed server) {address : Nat} {o : OccId}
    (tagged : tagOf server address = some o) : o < server.ghost.nextOcc := by
  obtain ⟨record, live, occ⟩ := Option.bind_eq_some_iff.mp tagged
  obtain ⟨p, started, same, -⟩ := attributed.records record ⟨address, live⟩
  rw [occ] at same
  cases same
  exact started

theorem book_tag_started (attributed : Attributed server) {o : OccId}
    (member : some o ∈ bookTags cfg hand server) : o < server.ghost.nextOcc := by
  have inMap : some o ∈ mapTags server → o < server.ghost.nextOcc := by
    intro tagged
    obtain ⟨entry, -, same⟩ := List.mem_map.mp tagged
    exact tag_started attributed same
  rw [bookTags] at member
  split at member
  · rcases List.mem_append.mp member with tagged | inHand
    · exact inMap tagged
    · obtain ⟨address, -, same⟩ := List.mem_map.mp inHand
      exact tag_started attributed same
  · exact inMap member

theorem covered_entered {c : ConnId} {now : Int} (attributed : Attributed server)
    (covered : Covered cfg hand server) (accepted : Entered cfg now server after c) :
    Covered cfg hand after := by
  have filed := accepted.filed hand covered.filed
  obtain ⟨record, theap, -, occ⟩ := accepted.theap
  have newTag : tagOf after server.theap.next = some server.ghost.nextOcc := by
    rw [tagOf, theap, BlockHeap.alloc_block_self]
    exact occ
  have kept : ∀ address ∈ held hand server, tagOf after address = tagOf server address := by
    intro address member
    have older : address ≠ server.theap.next := by
      rintro rfl
      exact next_not_held covered.filed member
    rw [tagOf, tagOf, theap, BlockHeap.alloc_block, if_neg older]
  have map : (mapTags after).Perm (some server.ghost.nextOcc :: mapTags server) := by
    rw [mapTags, accepted.entries]
    apply ((Multimap.enter_perm _ _ _).map _).trans
    rw [List.map_cons, newTag, mapTags]
    refine List.Perm.cons _ (List.Perm.of_eq (List.map_congr_left fun entry member => ?_))
    exact kept entry.2 (List.mem_append_left hand (List.mem_map_of_mem member))
  have books : (bookTags cfg hand after).Perm
      (some server.ghost.nextOcc :: bookTags cfg hand server) := by
    have inHand : hand.map (tagOf after) = hand.map (tagOf server) :=
      List.map_congr_left fun address member => kept address (List.mem_append_right _ member)
    rw [bookTags, bookTags, inHand]
    split
    · exact map.append_right _
    · exact map
  refine ⟨filed, ?_, fun d o serves => ?_, fun tag member => ?_⟩
  · refine books.nodup_iff.mpr (List.nodup_cons.mpr ⟨fun member => ?_, covered.once⟩)
    exact Nat.lt_irrefl _ (book_tag_started attributed member)
  · refine books.mem_iff.mpr (List.mem_cons.mpr ?_)
    rw [accepted.owner, Function.update_apply] at serves
    split at serves
    · exact Or.inl serves.symm
    · exact Or.inr (covered.complete d o serves)
  · rcases List.mem_cons.mp (map.mem_iff.mp member) with new | older
    · refine ⟨c, server.ghost.nextOcc, new, ?_⟩
      rw [accepted.owner, Function.update_self]
    · obtain ⟨d, o, tagged, serves⟩ := covered.sound tag older
      refine ⟨d, o, tagged, ?_⟩
      rw [accepted.owner, Function.update_of_ne, serves]
      rintro rfl
      rw [accepted.unowned] at serves
      cases serves

theorem over_time_tag (curTime : Int) (covered : Covered cfg hand server)
    (rest : List (Int × Nat)) (record : MsgHeader) {address : Nat}
    (member : address ∈ held hand server) :
    tagOf (overTimeTaken cfg server curTime rest record) address = tagOf server address := by
  obtain ⟨content, present⟩ :=
    Option.isSome_iff_exists.mp ((covered.filed.live address).mpr member)
  rw [tagOf, tagOf, present,
    over_time_taken_block curTime rest record covered.filed.wellFormed present]

theorem over_time_rest_tags (curTime : Int) (covered : Covered cfg hand server)
    {entry : Int × Nat} {rest : List (Int × Nat)} (record : MsgHeader)
    (entries : server.timerQueuemap = entry :: rest) :
    rest.map (fun other => tagOf (overTimeTaken cfg server curTime rest record) other.2) =
      rest.map fun other => tagOf server other.2 := by
  apply List.map_congr_left
  intro other member
  have filed : other ∈ server.timerQueuemap := entries ▸ List.mem_cons_of_mem entry member
  exact over_time_tag curTime covered rest record
    (List.mem_append_left hand (List.mem_map_of_mem filed))

theorem over_time_hand_tags (curTime : Int) (covered : Covered cfg hand server)
    {entry : Int × Nat} {rest : List (Int × Nat)} (record : MsgHeader)
    (entries : server.timerQueuemap = entry :: rest) :
    (hand ++ [entry.2]).map (tagOf (overTimeTaken cfg server curTime rest record)) =
      hand.map (tagOf server) ++ [tagOf server entry.2] := by
  have filed : entry ∈ server.timerQueuemap := entries ▸ List.mem_cons_self
  have taken := over_time_tag curTime covered rest record
    (List.mem_append_left hand (List.mem_map_of_mem filed))
  rw [List.map_append, List.map_singleton, taken]
  congr 1
  apply List.map_congr_left
  intro address member
  exact over_time_tag curTime covered rest record (List.mem_append_right _ member)

/-- A record that is taken out is in the hand of the monitor or in the map again. -/
theorem over_time_books (curTime : Int) (covered : Covered cfg hand server)
    {entry : Int × Nat} {rest : List (Int × Nat)} {record : MsgHeader}
    (entries : server.timerQueuemap = entry :: rest)
    (live : server.theap.block entry.2 = some record) :
    (bookTags cfg (hand ++ [entry.2]) (overTimeTaken cfg server curTime rest record)).Perm
        (bookTags cfg hand server) ∧
      ∀ tag ∈ mapTags (overTimeTaken cfg server curTime rest record), tag ∈ mapTags server := by
  have keptRest := over_time_rest_tags curTime covered record entries
  have before : mapTags server = tagOf server entry.2 :: rest.map fun other =>
      tagOf server other.2 := by
    rw [mapTags, entries, List.map_cons]
  by_cases kick : cfg.ifTimeOutKick = 1
  · have map : mapTags (overTimeTaken cfg server curTime rest record) =
        rest.map fun other => tagOf server other.2 := by
      rw [mapTags, (over_time_taken_kick curTime rest record kick).1, keptRest]
    rw [bookTags, bookTags, if_pos kick, if_pos kick, map,
      over_time_hand_tags curTime covered record entries, before]
    constructor
    · rw [← List.append_assoc]
      exact List.perm_append_singleton _ _
    · exact fun tag member => List.mem_cons_of_mem _ member
  · have newTag : tagOf (overTimeTaken cfg server curTime rest record) server.theap.next =
        tagOf server entry.2 := by
      rw [tagOf, tagOf, (over_time_taken_renew curTime rest record kick).2,
        BlockHeap.alloc_block_self, live]
    have map : (mapTags (overTimeTaken cfg server curTime rest record)).Perm
        (mapTags server) := by
      rw [mapTags, (over_time_taken_renew curTime rest record kick).1, before]
      apply ((Multimap.enter_perm _ _ _).map _).trans
      rw [List.map_cons, newTag, keptRest]
    rw [bookTags, bookTags, if_neg kick, if_neg kick]
    exact ⟨map, fun tag member => map.mem_iff.mp member⟩

theorem covered_over_time (curTime : Int) (covered : Covered cfg hand server)
    {entry : Int × Nat} {rest : List (Int × Nat)} {record : MsgHeader}
    (entries : server.timerQueuemap = entry :: rest)
    (live : server.theap.block entry.2 = some record) :
    Covered cfg (hand ++ [entry.2]) (overTimeTaken cfg server curTime rest record) := by
  have filed := (filed_over_time cfg covered.filed curTime record entries).1
  have owner : (overTimeTaken cfg server curTime rest record).ghost.occ = server.ghost.occ := by
    unfold overTimeTaken refresh insertTimer
    dsimp only
    split_ifs <;> rfl
  obtain ⟨books, fewer⟩ := over_time_books curTime covered entries live
  refine ⟨filed, books.nodup_iff.mpr covered.once, fun c o serves => ?_, fun tag member => ?_⟩
  · exact books.mem_iff.mpr (covered.complete c o (owner ▸ serves))
  · rw [owner]
    exact covered.sound tag (fewer tag member)

/-- The monitor frees a record that is not that of a client any more. -/
theorem covered_free {tmpmsg : Nat} (covered : Covered cfg (tmpmsg :: hand) server)
    (done : cfg.ifTimeOutKick = 1 → ∀ c o, tagOf server tmpmsg = some o →
      server.ghost.occ c ≠ some o) :
    Covered cfg hand (freeRecord server tmpmsg) := by
  have filed := filed_check covered.filed
  have kept : ∀ address ∈ held hand (freeRecord server tmpmsg),
      tagOf (freeRecord server tmpmsg) address = tagOf server address :=
    fun address member => tag_kept filed (fun _ _ => BlockHeap.block_of_free) member
  have map : mapTags (freeRecord server tmpmsg) = mapTags server :=
    List.map_congr_left fun entry member =>
      kept entry.2 (List.mem_append_left hand (List.mem_map_of_mem member))
  have books := book_tags_of_map cfg map
    (fun address member => kept address (List.mem_append_right _ member))
  have once := covered.once
  rw [bookTags, List.map_cons] at once
  refine ⟨filed, ?_, fun c o serves => ?_, fun tag member => covered.sound tag (map ▸ member)⟩
  · rw [books]
    split
    case isTrue kick =>
      rw [if_pos kick] at once
      exact once.sublist ((List.sublist_cons_self _ _).append_left _)
    case isFalse renew =>
      rw [if_neg renew] at once
      exact once
  · have complete := covered.complete c o serves
    rw [bookTags, List.map_cons] at complete
    rw [books]
    split
    case isTrue kick =>
      rw [if_pos kick] at complete
      rcases List.mem_append.mp complete with inMap | inHand
      · exact List.mem_append_left _ inMap
      · rcases List.mem_cons.mp inHand with gone | stays
        · exact absurd serves (done kick c o gone.symm)
        · exact List.mem_append_right _ stays
    case isFalse renew =>
      rw [if_neg renew] at complete
      exact complete

theorem covered_client_step {time : Option Int} (attributed : Attributed server)
    (covered : Covered cfg hand server) (moved : ClientStep cfg server after time) :
    Covered cfg hand after := by
  cases moved with
  | same _ kept => exact covered_of_clock covered kept.clock kept.owner
  | noted now c pinged => exact covered_of_clock covered pinged.clock pinged.owner
  | left now middle c marked closed =>
      have early : clock middle = clock server ∧ middle.ghost.occ = server.ghost.occ := by
        rcases marked with kept | ⟨d, pinged⟩
        · exact ⟨kept.clock, kept.owner⟩
        · exact ⟨pinged.clock, pinged.owner⟩
      have recorded := recorded_of_clock (attributed_recorded attributed) early.1 early.2
      exact covered_left recorded (covered_of_clock covered early.1 early.2) closed
  | entered now c accepted => exact covered_entered attributed covered accepted

/-- Covering is about the records in a hand, whatever the list of the monitor. -/
theorem covered_list (covered : Covered cfg hand server) (list : List Nat) :
    Covered cfg hand { server with lsIdleList := list } :=
  ⟨filed_of_same covered.filed rfl rfl rfl, covered.once, covered.complete, covered.sound⟩

theorem covered_drain (curTime : Int) (rounds : Nat) (server : Server)
    (covered : Covered cfg server.lsIdleList server) :
    Covered cfg (drainOverTime cfg curTime rounds server).lsIdleList
      (drainOverTime cfg curTime rounds server) := by
  induction rounds generalizing server with
  | zero => exact covered
  | succ rounds ih =>
      unfold drainOverTime
      rcases over_time_cases cfg covered.filed curTime with
        ⟨-, none⟩ | ⟨entry, rest, record, entries, -, live, taken⟩
      · rw [none]
        exact covered
      · rw [taken]
        have next := covered_over_time curTime covered entries live
        rw [← over_time_taken_hand curTime rest record] at next
        exact ih _ (covered_list next _)

theorem covered_monitor_pop (curTime : Int) (covered : Covered cfg server.lsIdleList server) :
    Covered cfg (serverTimerQueuePop cfg server curTime).lsIdleList
      (serverTimerQueuePop cfg server curTime) := by
  unfold serverTimerQueuePop
  split
  · have drained := covered_drain curTime server.timerQueuemap.length server covered
    exact ⟨filed_of_same drained.filed rfl rfl rfl, drained.once, drained.complete, drained.sound⟩
  · exact covered

/-- What a check makes of the connection that its record names. -/
theorem kick_cases (enabled : cfg.ifkickTimeCount = 1) (filed : Filed hand server)
    (record : MsgHeader) (curTime now : Int) :
    kickOverdue cfg server record curTime now = server ∧
        (record.iCurrsequence = (server.conns record.pConn).iCurrsequence →
          pingOverdue cfg (server.conns record.pConn) curTime = false) ∨
      record.iCurrsequence = (server.conns record.pConn).iCurrsequence ∧
        pingOverdue cfg (server.conns record.pConn) curTime = true ∧
        Left server (kickOverdue cfg server record curTime now) record.pConn := by
  unfold kickOverdue
  split_ifs with current overdue
  · have logged : Filed hand (logKick server record) := filed_of_same filed rfl rfl rfl
    have closed := left_zd enabled logged record.pConn now
    refine Or.inr ⟨current, overdue, fun list before => ?_, closed.head, closed.accounted,
      closed.entries, closed.hand, closed.blocks, closed.owner, closed.pings⟩
    exact closed.filed list (filed_of_same before rfl rfl rfl)
  · exact Or.inl ⟨rfl, fun _ => by simpa using overdue⟩
  · exact Or.inl ⟨rfl, fun same => absurd same current⟩

theorem ping_check_found {tmpmsg : Nat} {record : MsgHeader}
    (live : server.theap.block tmpmsg = some record) (curTime now : Int) :
    procPingTimeOutChecking cfg server tmpmsg curTime now =
      freeRecord (kickOverdue cfg server record curTime now) tmpmsg := by
  unfold procPingTimeOutChecking
  rw [live]

theorem covered_check (enabled : cfg.ifkickTimeCount = 1) (attributed : Attributed server)
    {tmpmsg : Nat} {rest : List Nat} (covered : Covered cfg (tmpmsg :: rest) server)
    (curTime now : Int) :
    Covered cfg rest
      (procPingTimeOutChecking cfg { server with lsIdleList := rest } tmpmsg curTime now) := by
  have member : tmpmsg ∈ held (tmpmsg :: rest) server :=
    List.mem_append_right _ List.mem_cons_self
  obtain ⟨record, live⟩ := Option.isSome_iff_exists.mp ((covered.filed.live tmpmsg).mpr member)
  have quiet := covered_list covered rest
  have found : ({ server with lsIdleList := rest } : Server).theap.block tmpmsg = some record :=
    live
  have stamped := attributed.records record ⟨tmpmsg, live⟩
  have recorded := attributed_recorded attributed
  rw [ping_check_found found]
  rcases kick_cases enabled quiet.filed record curTime now with
    ⟨same, stays⟩ | ⟨current, overdue, closed⟩
  · rw [same]
    apply covered_free quiet
    intro kick c o tagged serves
    have owns : server.ghost.occ c = some o := serves
    have occ : record.occ = some o := by
      rw [tagOf, found] at tagged
      exact tagged
    have names := recorded tmpmsg record c o live occ owns
    have current := (stamped_current (settled_stamps attributed.settled) stamped).mpr (by
      rw [names, occ]
      exact owns)
    have notOverdue := stays current
    rw [pingOverdue, kick] at notOverdue
    simp at notOverdue
  · have here : Recorded { server with lsIdleList := rest } := recorded
    apply covered_free (covered_left here quiet closed)
    intro kick c o tagged serves
    obtain ⟨content, stays, occ⟩ := Option.bind_eq_some_iff.mp tagged
    have before : server.theap.block tmpmsg = some content := closed.blocks tmpmsg content stays
    rw [live] at before
    cases before
    rw [closed.owner] at serves
    by_cases same : c = record.pConn
    · rw [same, Function.update_self] at serves
      cases serves
    · rw [Function.update_of_ne same] at serves
      exact same (recorded tmpmsg record c o live occ serves).symm

structure Kept (cfg : Config) (server : Server) : Prop where
  attributed : Attributed server
  covered : Covered cfg server.lsIdleList server
  head : HeadCurrent server
  accounted : BlockHeap.Accounted server.theap

theorem accounted_over_time {curTime : Int} {rest : List (Int × Nat)} {record : MsgHeader}
    (accounted : BlockHeap.Accounted server.theap) :
    BlockHeap.Accounted (overTimeTaken cfg server curTime rest record).theap := by
  by_cases kick : cfg.ifTimeOutKick = 1
  · rw [(over_time_taken_kick curTime rest record kick).2]
    exact accounted
  · rw [(over_time_taken_renew curTime rest record kick).2]
    exact BlockHeap.alloc_accounted accounted record

theorem drain_head_accounted (curTime : Int) (rounds : Nat) (server : Server)
    (filed : Filed server.lsIdleList server) (head : HeadCurrent server)
    (accounted : BlockHeap.Accounted server.theap) :
    HeadCurrent (drainOverTime cfg curTime rounds server) ∧
      BlockHeap.Accounted (drainOverTime cfg curTime rounds server).theap := by
  induction rounds generalizing server with
  | zero => exact ⟨head, accounted⟩
  | succ rounds ih =>
      unfold drainOverTime
      rcases over_time_cases cfg filed curTime with
        ⟨-, none⟩ | ⟨entry, rest, record, entries, -, -, taken⟩
      · rw [none]
        exact ⟨head, accounted⟩
      · rw [taken]
        obtain ⟨next, current⟩ := filed_over_time cfg filed curTime record entries
        rw [← over_time_taken_hand curTime rest record] at next
        exact ih _ (filed_of_same next rfl rfl rfl) current (accounted_over_time accounted)

theorem client_step_rest {time : Option Int} (moved : ClientStep cfg server after time) :
    after.lsIdleList = server.lsIdleList ∧ (HeadCurrent server → HeadCurrent after) ∧
      (BlockHeap.Accounted server.theap → BlockHeap.Accounted after.theap) := by
  have quiet : ∀ later : Server, clock later = clock server →
      later.lsIdleList = server.lsIdleList ∧ (HeadCurrent server → HeadCurrent later) ∧
        (BlockHeap.Accounted server.theap → BlockHeap.Accounted later.theap) := by
    intro later same
    have theap : later.theap = server.theap := congrArg Clock.theap same
    exact ⟨congrArg Clock.lsIdleList same, head_of_clock same, fun accounted => theap ▸ accounted⟩
  cases moved with
  | same _ kept => exact quiet after kept.clock
  | noted now c pinged => exact quiet after pinged.clock
  | left now middle c marked closed =>
      have early : clock middle = clock server := by
        rcases marked with kept | ⟨d, pinged⟩
        · exact kept.clock
        · exact pinged.clock
      obtain ⟨hand, -, accounted⟩ := quiet middle early
      exact ⟨closed.hand.trans hand, fun _ => closed.head,
        fun before => closed.accounted (accounted before)⟩
  | entered now c accepted =>
      obtain ⟨record, theap, -, -⟩ := accepted.theap
      refine ⟨accepted.hand, fun _ => accepted.head, fun accounted => ?_⟩
      rw [theap]
      exact BlockHeap.alloc_accounted accounted record

theorem kept_check (enabled : cfg.ifkickTimeCount = 1) (kept : Kept cfg server) {tmpmsg : Nat}
    {rest : List Nat} (front : server.lsIdleList = tmpmsg :: rest) (curTime now : Int)
    (attributed : Attributed (procPingTimeOutChecking cfg { server with lsIdleList := rest } tmpmsg
      curTime now)) :
    Kept cfg (procPingTimeOutChecking cfg { server with lsIdleList := rest } tmpmsg curTime
      now) := by
  have before := kept.covered
  rw [front] at before
  have covered := covered_check enabled kept.attributed before curTime now
  have member : tmpmsg ∈ held (tmpmsg :: rest) server :=
    List.mem_append_right _ List.mem_cons_self
  obtain ⟨record, live⟩ := Option.isSome_iff_exists.mp ((before.filed.live tmpmsg).mpr member)
  have quiet : Filed (tmpmsg :: rest) { server with lsIdleList := rest } :=
    filed_of_same before.filed rfl rfl rfl
  have found : ({ server with lsIdleList := rest } : Server).theap.block tmpmsg = some record :=
    live
  rw [ping_check_found found] at attributed covered ⊢
  rcases kick_cases enabled quiet record curTime now with ⟨same, -⟩ | ⟨-, -, closed⟩
  · rw [same] at attributed covered ⊢
    exact ⟨attributed, covered, kept.head, BlockHeap.free_accounted kept.accounted tmpmsg⟩
  · have list : (kickOverdue cfg { server with lsIdleList := rest } record curTime
        now).lsIdleList = rest := closed.hand
    refine ⟨attributed, ?_, closed.head,
      BlockHeap.free_accounted (closed.accounted kept.accounted) tmpmsg⟩
    have same : (freeRecord (kickOverdue cfg { server with lsIdleList := rest } record curTime
        now) tmpmsg).lsIdleList = rest := list
    rw [same]
    exact covered

theorem kept_step (enabled : cfg.ifkickTimeCount = 1) {act : Act} (kept : Kept cfg server)
    (disciplined : Disciplined server act) (taken : step cfg server act = some after) :
    Kept cfg after := by
  have attributed := attributed_step kept.attributed disciplined taken
  have filed := kept.covered.filed
  by_cases monitor : (∀ curTime, act ≠ .monitorPop curTime) ∧ ∀ now, act ≠ .monitorCheck now
  · have moved := step_clients enabled filed kept.attributed disciplined taken monitor.1 monitor.2
    have covered := covered_client_step kept.attributed kept.covered moved
    obtain ⟨hand, head, accounted⟩ := client_step_rest moved
    exact ⟨attributed, hand ▸ covered, head kept.head, accounted kept.accounted⟩
  · cases stepped_of_step taken with
    | monitorPop curTime =>
        have popped := covered_monitor_pop curTime kept.covered
        obtain ⟨head, accounted⟩ : HeadCurrent (serverTimerQueuePop cfg server curTime) ∧
            BlockHeap.Accounted (serverTimerQueuePop cfg server curTime).theap := by
          unfold serverTimerQueuePop
          split
          · exact drain_head_accounted curTime _ server filed kept.head kept.accounted
          · exact ⟨kept.head, kept.accounted⟩
        exact ⟨attributed, popped, head, accounted⟩
    | monitorCheck now tmpmsg rest front =>
        exact kept_check enabled kept front server.monitorTime now attributed
    | _ => exact absurd ⟨by simp, by simp⟩ monitor

theorem kept_fresh (fresh : Fresh server) : Kept cfg server := by
  have attributed := fresh_attributed fresh
  obtain ⟨listenFds, -, -, rfl⟩ := fresh
  have clocked : Clocked (Server.construct listenFds) := clocked_untimed ⟨rfl, rfl, rfl, rfl⟩
  have books : bookTags cfg (Server.construct listenFds).lsIdleList
      (Server.construct listenFds) = [] := by
    unfold bookTags
    split <;> rfl
  refine ⟨attributed, ⟨clocked.filed, ?_, ?_, ?_⟩, clocked.head, BlockHeap.empty_accounted⟩
  · rw [books]
    exact List.nodup_nil
  · intro c o serves
    cases serves
  · intro tag member
    cases member

end Steps

theorem reachable_kept {cfg : Config} (enabled : cfg.ifkickTimeCount = 1) {server : Server}
    (reached : Reachable cfg Disciplined server) : Kept cfg server :=
  TransitionSystem.invariant_of_step (Kept cfg) (fun _ => kept_fresh)
    (fun _ _ _ kept disciplined taken => kept_step enabled kept disciplined taken) reached

def InUse (server : Server) (c : ConnId) : Prop :=
  c ∈ QuarantinePool.inUse (poolView server) ∧ c ∉ server.listenConns

instance (server : Server) (c : ConnId) : Decidable (InUse server c) :=
  inferInstanceAs (Decidable (_ ∧ _))

def currentRecord (server : Server) (c : ConnId) (address : Nat) : Bool :=
  match server.theap.block address with
  | none => false
  | some record =>
      decide (record.pConn = c ∧ record.iCurrsequence = (server.conns c).iCurrsequence)

/-- What the timer queue knows about the connections. -/
structure TimersOk (cfg : Config) (server : Server) : Prop where
  /-- without `m_ifTimeOutKick` a client has exactly one entry, and that is current -/
  renewed : cfg.ifTimeOutKick ≠ 1 → ∀ c, InUse server c →
    ∃ entry, server.timerQueuemap.filter (recordOf server c) = [entry] ∧
      currentRecord server c entry.2 = true
  /-- with it exactly one record, in the map or with the monitor, is current -/
  kicked : cfg.ifTimeOutKick = 1 → ∀ c, InUse server c →
    ∃ address, (held server.lsIdleList server).filter (currentRecord server c) = [address]
  current : ∀ c entry, entry ∈ server.timerQueuemap → recordOf server c entry = true →
    InUse server c ∧ currentRecord server c entry.2 = true
  idle : ∀ c, c ∈ server.freeconnectionList ∨ c ∈ server.recyconnectionList →
    server.timerQueuemap.filter (recordOf server c) = []
  /-- a record is held in one place until it is freed, once -/
  freed : (held server.lsIdleList server).Nodup ∧ server.theap.frees.Nodup ∧
    ∀ address, 0 < address → address < server.theap.next →
      (address ∈ held server.lsIdleList server ↔ address ∉ server.theap.frees)

/-- One element of a list without repetitions is picked out by its name. -/
theorem filter_named {Item Name : Type} {items : List Item} (name : Item → Name)
    (distinct : (items.map name).Nodup) {item : Item} (member : item ∈ items)
    (picks : Item → Bool) (exact : ∀ other ∈ items, picks other = true ↔ name other = name item) :
    items.filter picks = [item] := by
  induction items with
  | nil => cases member
  | cons head rest ih =>
      rw [List.map_cons, List.nodup_cons] at distinct
      rcases List.mem_cons.mp member with rfl | later
      · have others : rest.filter picks = [] := by
          rw [List.filter_eq_nil_iff]
          intro other inside picked
          have same := (exact other (List.mem_cons_of_mem _ inside)).mp picked
          exact distinct.1 (same ▸ List.mem_map_of_mem inside)
        rw [List.filter_cons_of_pos ((exact item List.mem_cons_self).mpr rfl), others]
      · have different : ¬ picks head = true := by
          intro picked
          have same := (exact head List.mem_cons_self).mp picked
          exact distinct.1 (same ▸ List.mem_map_of_mem later)
        rw [List.filter_cons_of_neg different]
        exact ih distinct.2 later fun other inside =>
          exact other (List.mem_cons_of_mem _ inside)

section Kept

variable {cfg : Config} {server : Server}

theorem in_use_owner (settled : QuarantinePool.Settled (poolView server)) {c : ConnId} :
    InUse server c ↔ ∃ o, server.ghost.occ c = some o := by
  have stamps := settled_stamps settled
  constructor
  · rintro ⟨used, client⟩
    exact Option.ne_none_iff_exists'.mp (stamps.used_owner c used client (by simp))
  · rintro ⟨o, serves⟩
    exact stamps.owner_used c o serves

theorem current_record_tag (attributed : Attributed server) {c : ConnId} {o : OccId}
    (serves : server.ghost.occ c = some o) {address : Nat} :
    currentRecord server c address = true ↔ tagOf server address = some o := by
  cases live : server.theap.block address with
  | none => simp [currentRecord, tagOf, live]
  | some record =>
      have reads : currentRecord server c address = decide (record.pConn = c ∧
          record.iCurrsequence = (server.conns c).iCurrsequence) := by
        rw [currentRecord, live]
      have tag : tagOf server address = record.occ := by rw [tagOf, live]; rfl
      have current := stamped_current (settled_stamps attributed.settled)
        (attributed.records record ⟨address, live⟩)
      rw [reads, tag, decide_eq_true_iff]
      constructor
      · rintro ⟨rfl, same⟩
        rw [← current.mp same]
        exact serves
      · intro occ
        have names := attributed_recorded attributed address record c o live occ serves
        subst names
        exact ⟨rfl, current.mpr (serves.trans occ.symm)⟩

theorem kept_timers_ok (kept : Kept cfg server) : TimersOk cfg server where
  renewed := by
    intro renew c used
    obtain ⟨o, serves⟩ := (in_use_owner kept.attributed.settled).mp used
    have once := kept.covered.once
    have complete := kept.covered.complete c o serves
    rw [bookTags, if_neg renew] at once complete
    obtain ⟨entry, member, tag⟩ := List.mem_map.mp complete
    refine ⟨entry, filter_named _ once member _ fun other inside => ?_,
      (current_record_tag kept.attributed serves).mpr tag⟩
    rw [entry_tag (attributed_recorded kept.attributed) kept.covered inside c, tag]
    constructor
    · rintro ⟨p, same, owns⟩
      rw [same, ← owns, serves]
    · exact fun same => ⟨o, same, serves⟩
  kicked := by
    intro kick c used
    obtain ⟨o, serves⟩ := (in_use_owner kept.attributed.settled).mp used
    have books : bookTags cfg server.lsIdleList server =
        (held server.lsIdleList server).map (tagOf server) := by
      rw [bookTags, if_pos kick, held, List.map_append, List.map_map]
      rfl
    have once := kept.covered.once
    have complete := kept.covered.complete c o serves
    rw [books] at once complete
    obtain ⟨address, member, tag⟩ := List.mem_map.mp complete
    refine ⟨address, filter_named _ once member _ fun other _ => ?_⟩
    rw [tag]
    exact current_record_tag kept.attributed serves
  current := by
    intro c entry member names
    obtain ⟨o, tag, serves⟩ :=
      (entry_tag (attributed_recorded kept.attributed) kept.covered member c).mp names
    exact ⟨(in_use_owner kept.attributed.settled).mpr ⟨o, serves⟩,
      (current_record_tag kept.attributed serves).mpr tag⟩
  idle := by
    intro c waits
    rw [List.filter_eq_nil_iff]
    intro entry member names
    obtain ⟨o, -, serves⟩ :=
      (entry_tag (attributed_recorded kept.attributed) kept.covered member c).mp names
    have used := ((in_use_owner kept.attributed.settled).mpr ⟨o, serves⟩).1
    have out := ((QuarantinePool.mem_in_use _ c).mp used).2
    exact waits.elim out.1 out.2
  freed := by
    have filed := kept.covered.filed
    refine ⟨filed.once, filed.wellFormed.once, fun address positive bounded => ?_⟩
    rw [← filed.live address]
    constructor
    · intro live freed
      rw [(filed.wellFormed.dead address freed).2] at live
      cases live
    · intro notFreed
      by_contra dead
      rw [Option.not_isSome_iff_eq_none] at dead
      exact notFreed (kept.accounted address positive bounded dead)

end Kept

end NgxServer.TimerCoverage
