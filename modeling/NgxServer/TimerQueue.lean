import NgxServer.State

/-!
# The kick clock

`ngx_c_socket_time.cxx`: the multimap from times to records, with the two
shadow members `m_cur_size_` and `m_timer_value_`, and the part of the monitor
thread that runs under the timer mutex.
-/

namespace NgxServer.TimerQueue

open NgxServer.Comm NgxServer.State

set_option autoImplicit false

/-- `std::multimap::insert`: behind every entry with the same key. -/
def multimapInsert (key : Int) (record : Nat) : List (Int × Nat) → List (Int × Nat)
  | [] => [(key, record)]
  | entry :: rest =>
      if key < entry.1 then (key, record) :: entry :: rest
      else entry :: multimapInsert key record rest

/-- `--m_cur_size_`, a `size_t`: below zero it wraps. Upwards a natural number is
exact, as a map has fewer than 2^64 entries. -/
def decSize (size : Nat) : Nat := if size = 0 then 2 ^ 64 - 1 else size - 1

def getEarliestTime (server : Server) : Int :=
  match server.timerQueuemap with
  | [] => 0
  | entry :: _ => entry.1

def insertTimer (server : Server) (key : Int) (record : MsgHeader) : Server :=
  { server with
    theap := BlockHeap.alloc server.theap record
    timerQueuemap := multimapInsert key server.theap.next server.timerQueuemap
    curSize := server.curSize + 1 }

def addToTimerQueue (cfg : Config) (server : Server) (c : ConnId) (now : Int) : Server :=
  let inserted := insertTimer server (now + cfg.iWaitTime)
    { pConn := c, iCurrsequence := (server.conns c).iCurrsequence, occ := server.ghost.occ c }
  { inserted with timerValue := getEarliestTime inserted }

def removeFirstTimer (server : Server) : Option Nat × Server :=
  if server.curSize ≤ 0 then (none, server)
  else
    match server.timerQueuemap with
    | [] => (none, server)
    | entry :: rest =>
        (some entry.2, { server with timerQueuemap := rest, curSize := decSize server.curSize })

def getOverTimeTimer (cfg : Config) (server : Server) (curTime : Int) : Option Nat × Server :=
  if server.curSize = 0 ∨ server.timerQueuemap = [] then (none, server)
  else if getEarliestTime server ≤ curTime then
    match removeFirstTimer server with
    | (none, removed) => (none, removed)
    | (some ptmp, removed) =>
        let reinserted :=
          if cfg.ifTimeOutKick ≠ 1 then
            match removed.theap.block ptmp with
            | none => removed
            | some record => insertTimer removed (curTime + cfg.iWaitTime) record
          else removed
        (some ptmp,
          if reinserted.curSize > 0 then
            { reinserted with timerValue := getEarliestTime reinserted }
          else reinserted)
  else (none, server)

def recordOf (server : Server) (c : ConnId) (entry : Int × Nat) : Bool :=
  match server.theap.block entry.2 with
  | none => false
  | some record => record.pConn == c

/-- The loop at `lblMTQM`: erases the first entry of the connection and starts
over. Each round shortens the map. -/
def lblMTQM (c : ConnId) : Nat → Server → Server
  | 0, server => server
  | rounds + 1, server =>
      match server.timerQueuemap.find? (recordOf server c) with
      | none => server
      | some entry =>
          lblMTQM c rounds
            { server with
              theap := BlockHeap.free server.theap entry.2
              timerQueuemap := server.timerQueuemap.erase entry
              curSize := decSize server.curSize }

def deleteFromTimerQueue (server : Server) (c : ConnId) : Server :=
  let deleted := lblMTQM c server.timerQueuemap.length server
  if deleted.curSize > 0 then { deleted with timerValue := getEarliestTime deleted }
  else deleted

/-- `clearAllFromTimerQueue`. It leaves `m_timer_value_` as it was. -/
def clearAllFromTimerQueue (server : Server) : Server :=
  let freed := server.timerQueuemap.foldl (fun rest entry =>
    { rest with
      theap := BlockHeap.free rest.theap entry.2
      curSize := decSize rest.curSize }) server
  { freed with timerQueuemap := [] }

/-- The `while` loop of the monitor: takes records until `GetOverTimeTimer`
returns none. Every record taken was in the map when the loop began, because
re-inserted entries lie beyond `curTime`; hence the bound on the rounds. -/
def drainOverTime (cfg : Config) (curTime : Int) : Nat → Server → Server
  | 0, server => server
  | rounds + 1, server =>
      match getOverTimeTimer cfg server curTime with
      | (none, rest) => rest
      | (some record, rest) =>
          drainOverTime cfg curTime rounds
            { rest with lsIdleList := rest.lsIdleList ++ [record] }

/-- One wake-up of `ServerTimerQueueMonitorThread` up to the unlocking of the
timer mutex. -/
def serverTimerQueuePop (cfg : Config) (server : Server) (curTime : Int) : Server :=
  if server.curSize > 0 ∧ server.timerValue < curTime then
    { drainOverTime cfg curTime server.timerQueuemap.length server with monitorTime := curTime }
  else server

end NgxServer.TimerQueue
