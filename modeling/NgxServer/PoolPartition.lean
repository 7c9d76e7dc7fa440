import NgxServer.Occupancy

/-!
# The connection pool is a partition

Every connection object is free, waits for recycling or is in use, the four
counters say how many there are of each, and no descriptor is leaked or closed
twice, whatever is accepted, closed and recycled in whatever order.
-/

namespace NgxServer.PoolPartition

open NgxServer.Comm NgxServer.State NgxServer.Accept NgxServer.System
open NgxServer.PoolRefinement NgxServer.Occupancy
open QuarantinePool (Settled InService)

set_option autoImplicit false

/-- The connections that are neither free nor waiting for recycling, listening
sockets included. -/
def inUse (server : Server) : List ConnId :=
  server.connectionList.filter fun c =>
    decide (c ∉ server.freeconnectionList ∧ c ∉ server.recyconnectionList)

def inUseClients (server : Server) : List ConnId :=
  (inUse server).filter fun c => decide (c ∉ server.listenConns)

structure Partitioned (server : Server) : Prop where
  /-- every object is listed once, and both lists hold listed objects, once -/
  listed_once : server.connectionList.Nodup
  free_once : server.freeconnectionList.Nodup
  recy_once : server.recyconnectionList.Nodup
  free_listed : ∀ c ∈ server.freeconnectionList, c ∈ server.connectionList
  recy_listed : ∀ c ∈ server.recyconnectionList, c ∈ server.connectionList
  /-- every object is free, waiting or in use, and only one of the three -/
  exactly_one : ∀ c ∈ server.connectionList,
    c ∈ server.freeconnectionList ∧ c ∉ server.recyconnectionList ∧ c ∉ inUse server ∨
      c ∉ server.freeconnectionList ∧ c ∈ server.recyconnectionList ∧ c ∉ inUse server ∨
      c ∉ server.freeconnectionList ∧ c ∉ server.recyconnectionList ∧ c ∈ inUse server
  total_count : server.totalConnectionN = server.connectionList.length
  free_count : server.freeConnectionN = server.freeconnectionList.length
  recy_count : server.totolRecyconnectionN = server.recyconnectionList.length
  online_count : server.onlineUserCount = (inUseClients server).length
  online_difference : server.onlineUserCount = server.totalConnectionN - server.freeConnectionN -
    server.totolRecyconnectionN - server.listenConns.length
  fd_open : ∀ c ∈ inUse server, (server.conns c).fd ≠ -1 ∧ (server.conns c).fd ∈ server.openFds
  fd_distinct : ∀ c ∈ inUse server, ∀ d ∈ inUse server,
    (server.conns c).fd = (server.conns d).fd → c = d
  /-- every descriptor was closed as often as it was handed out, once less if it
  is open now -/
  descriptor_once : ∀ fd, (server.listenFds ++ server.ghost.accepted).count fd =
    server.ghost.closed.count fd + if fd ∈ server.openFds then 1 else 0
  /-- an open descriptor belongs to exactly one connection in use; before
  `ngx_epoll_init` the listening sockets are open without one -/
  open_held : ∀ fd ∈ server.openFds,
    server.connectionList = [] ∧ fd ∈ server.listenFds ∨
      ∃! c, c ∈ inUse server ∧ (server.conns c).fd = fd

theorem mem_in_use (server : Server) (c : ConnId) :
    c ∈ inUse server ↔ c ∈ server.connectionList ∧ c ∉ server.freeconnectionList ∧
      c ∉ server.recyconnectionList :=
  QuarantinePool.mem_in_use (poolView server) c

/-- All objects: the free ones, those waiting, the listening ones and the
clients in use. -/
theorem connection_list_perm {server : Server}
    (places : QuarantinePool.Placed (poolView server) []) :
    server.connectionList.Perm (server.freeconnectionList ++ server.recyconnectionList ++
      server.listenConns ++ inUseClients server) := by
  have distinct : (server.freeconnectionList ++ server.recyconnectionList ++
      server.listenConns ++ []).Nodup := places.placed_nodup
  have inside : ∀ c ∈ server.freeconnectionList ++ server.recyconnectionList ++
      server.listenConns ++ [], c ∈ server.connectionList := places.placed_all
  have nodup : server.connectionList.Nodup := places.all_nodup
  rw [List.append_nil] at distinct inside
  refine (List.perm_ext_iff_of_nodup nodup (List.nodup_append'.mpr
    ⟨distinct, (nodup.filter _).filter _, ?_⟩)).mpr ?_
  · intro c listed client
    simp only [List.mem_filter, decide_eq_true_eq] at client
    simp only [List.mem_append] at listed
    tauto
  · intro c
    have listed := inside c
    simp only [List.mem_append] at listed
    simp only [List.mem_append, List.mem_filter, decide_eq_true_eq]
    tauto

theorem in_use_clients_length {server : Server}
    (places : QuarantinePool.Placed (poolView server) []) :
    server.connectionList.length = server.freeconnectionList.length +
      server.recyconnectionList.length + server.listenConns.length +
      (inUseClients server).length := by
  simpa only [List.length_append] using (connection_list_perm places).length_eq

theorem settled_invariant {server : Server} (settled : Settled (poolView server)) :
    ∃ stray, QuarantinePool.Invariant (poolView server) [] stray ∧
      ∀ fd ∈ stray, server.connectionList = [] ∧ fd ∈ server.listenFds := by
  refine ⟨_, settled, ?_⟩
  intro fd member
  split at member
  case isTrue empty => exact ⟨empty, member⟩
  case isFalse => cases member

theorem settled_partitioned {server : Server} (settled : Settled (poolView server)) :
    Partitioned server := by
  obtain ⟨stray, ⟨places, handles, counts, stamps⟩, strayListening⟩ := settled_invariant settled
  have sizes := in_use_clients_length places
  have total : server.totalConnectionN = server.connectionList.length := counts.all_count
  have free : server.freeConnectionN = server.freeconnectionList.length := counts.free_count
  have recy : server.totolRecyconnectionN = server.recyconnectionList.length :=
    counts.quarantine_count
  have online : server.onlineUserCount = (server.connectionList.length : Int) -
      server.freeconnectionList.length - server.recyconnectionList.length -
      server.listenConns.length - ([] : List Nat).length := counts.client_count
  have distinct := places.placed_nodup
  simp only [QuarantinePool.placed, List.nodup_append'] at distinct
  obtain ⟨⟨⟨freeOnce, recyOnce, apart⟩, -, -⟩, -, -⟩ := distinct
  have inside : ∀ c ∈ QuarantinePool.placed (poolView server) [], c ∈ server.connectionList :=
    places.placed_all
  simp only [QuarantinePool.placed, List.mem_append] at inside
  exact
    { listed_once := places.all_nodup
      free_once := freeOnce
      recy_once := recyOnce
      free_listed := fun c member => inside c (Or.inl (Or.inl (Or.inl member)))
      recy_listed := fun c member => inside c (Or.inl (Or.inl (Or.inr member)))
      exactly_one := by
        intro c listed
        have never : c ∈ server.freeconnectionList → c ∉ server.recyconnectionList :=
          fun left right => apart left right
        rw [mem_in_use]
        tauto
      total_count := total
      free_count := free
      recy_count := recy
      online_count := by
        rw [List.length_nil] at online
        omega
      online_difference := by
        rw [List.length_nil] at online
        omega
      fd_open := by
        intro c used
        have opened : (server.conns c).fd ∈ server.openFds :=
          QuarantinePool.used_open handles used
        have nonneg : 0 ≤ (server.conns c).fd := handles.opened_nonneg _ opened
        exact ⟨by omega, opened⟩
      fd_distinct := fun c used d other same =>
        QuarantinePool.used_injective handles used other same
      descriptor_once := by
        intro fd
        have history : (server.listenFds ++ server.ghost.accepted).Perm
            (server.ghost.closed ++ server.openFds) := handles.history
        have nodup : server.openFds.Nodup := handles.opened_nodup
        rw [history.count_eq fd, List.count_append, nodup.count]
      open_held := by
        intro fd opened
        rcases List.mem_append.mp (handles.held.mem_iff.mp opened) with wild | held
        · exact Or.inl (strayListening fd wild)
        · obtain ⟨c, used, same⟩ := List.mem_map.mp held
          refine Or.inr ⟨c, ⟨used, same⟩, ?_⟩
          rintro d ⟨other, equal⟩
          exact QuarantinePool.used_injective handles other used (equal.trans same.symm) }

/-- In every run of `ngx_epoll_init`, `ngx_event_accept` with any outcome of its
system calls, `zdClosesocketProc` by any party on a connection in use or waiting
for recycling, and recycler passes, among all the other steps of the process,
the pool stays a partition. -/
theorem connection_pool_partition (cfg : Config) (server : Server)
    (reached : Reachable cfg Disciplined server) : Partitioned server :=
  settled_partitioned (reachable_attributed (fun _ _ => id) reached).settled

/-- A client that is closed twice and recycled, one that fails to register, and
one that stays. -/
theorem connection_pool_partition_sample :
    ∃ server, (server.freeconnectionList, server.recyconnectionList, server.openFds,
        server.ghost.closed) = (([], [], [7, 3], [5, 5]) : List ConnId × List ConnId ×
          List Int × List Int) ∧ Partitioned server := by
  have seen : (run sampleConfig Disciplined
      [.epollInit (fun _ => true) 1000, .accept 0 [.ok 5] true true 1001, .close 1 1002,
        .close 1 1003, .recycle 1070, .accept 0 [.ok 5] true false 1071,
        .accept 0 [.ok 7] true true 1072]).map (fun server =>
          (server.freeconnectionList, server.recyconnectionList, server.openFds,
            server.ghost.closed)) = some ([], [], [7, 3], [5, 5]) := by
    decide
  obtain ⟨server, reached, same⟩ := reachable_of_seen seen
  exact ⟨server, same, connection_pool_partition sampleConfig server reached⟩

end NgxServer.PoolPartition
