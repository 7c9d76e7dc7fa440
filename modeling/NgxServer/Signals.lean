import Mathlib.Logic.Function.Basic
import NgxServer.Log
import NgxServer.Lib.TransitionSystem

/-!
# The processes and their signals

`ngx_signal.cxx` and `ngx_process_cycle.cxx`: the master process masks the signals,
creates the worker processes and then only waits for signals in `sigsuspend`; a worker
process unmasks them, sets up its threads and serves. What the kernel does with a signal
(one pending signal of a number, the mask during a handler, `SIGCHLD` to the parent) and
with an ended child (it waits for `waitpid`) is as its manual pages say.
-/

namespace NgxServer.Signals

open NgxServer.Comm NgxServer.Printf NgxServer.Log TransitionSystem

set_option autoImplicit false

def sighup : Nat := 1
def sigint : Nat := 2
def sigquit : Nat := 3
def sigkill : Nat := 9
def sigusr1 : Nat := 10
def sigusr2 : Nat := 12
def sigalrm : Nat := 14
def sigterm : Nat := 15
def sigchld : Nat := 17
def sigcont : Nat := 18
def sigstop : Nat := 19
def sigtstp : Nat := 20
def sigttin : Nat := 21
def sigttou : Nat := 22
def sigurg : Nat := 23
def sigwinch : Nat := 28
def sigio : Nat := 29
def sigsys : Nat := 31

structure NgxSignal where
  signo : Nat
  signame : CString
  handler : Bool

def signals : List NgxSignal :=
  [{ signo := sighup, signame := literal "SIGHUP", handler := true },
    { signo := sigint, signame := literal "SIGINT", handler := true },
    { signo := sigterm, signame := literal "SIGTERM", handler := true },
    { signo := sigchld, signame := literal "SIGCHLD", handler := true },
    { signo := sigquit, signame := literal "SIGQUIT", handler := true },
    { signo := sigio, signame := literal "SIGIO", handler := true },
    { signo := sigsys, signame := literal "SIGSYS, SIG_IGN", handler := false }]

structure LogCall where
  level : Nat
  err : Nat
  fmt : List Byte
  args : List VaArg

def ngxLogEmerg : Nat := 1
def ngxLogAlert : Nat := 2
def ngxLogNotice : Nat := 6
def ngxLogInfo : Nat := 7

/-- The bytes of a literal of the source, which is in UTF-8. -/
def utf8 (s : String) : List Byte := s.toUTF8.data.toList.map fun byte => BitVec.ofNat 8 byte.toNat

inductive Disposition
  | dfl
  | ign
  | handler
  deriving DecidableEq

/-- The loop of `ngx_init_signals`: what is done with each signal, what is logged and
what is returned. -/
def initLoop (sigactionOk : Nat → Bool) (errno : Nat) : List NgxSignal →
    (Nat → Disposition) → (Nat → Disposition) × List LogCall × Int
  | [], disposition => (disposition, [], 0)
  | sig :: rest, disposition =>
      if sigactionOk sig.signo then
        initLoop sigactionOk errno rest
          (Function.update disposition sig.signo (if sig.handler then .handler else .ign))
      else
        (disposition,
          [{ level := ngxLogEmerg, err := errno, fmt := utf8 "sigaction(%s) failed",
             args := [.str sig.signame] }], -1)

def ngxInitSignals (sigactionOk : Nat → Bool) (errno : Nat) (disposition : Nat → Disposition) :
    (Nat → Disposition) × List LogCall × Int :=
  initLoop sigactionOk errno signals disposition

inductive DefaultAction
  | terminate
  | ignore
  | stop
  | resume
  deriving DecidableEq

def defaultAction (signo : Nat) : DefaultAction :=
  if signo ∈ [sigstop, sigtstp, sigttin, sigttou] then .stop
  else if signo = sigcont then .resume
  else if signo ∈ [sigchld, sigurg, sigwinch] then .ignore
  else .terminate

abbrev Pid := Nat

inductive ProcessType
  | master
  | worker
  deriving DecidableEq

/-- The variables of the process that have to do with processes, and `ngx_log.log_level`. -/
structure Globals where
  ngxProcess : ProcessType
  ngxPid : Pid
  ngxParent : Pid
  ngxReap : Nat
  logLevel : Int
  deriving DecidableEq

inductive Stage
  | entered (siPid : Pid)
  /-- in the loop of `ngx_process_get_status` -/
  | waiting (one : Bool)
  deriving DecidableEq

structure Frame where
  signo : Nat
  stage : Stage
  deriving DecidableEq

/-- A process as the kernel and the program see it; a pending signal has its sender. -/
structure Proc (Pc : Type) where
  globals : Globals
  mask : List Nat
  pending : List (Nat × Pid)
  frames : List Frame
  pc : Pc

variable {Pc : Type}

/-- The kernel notes a signal, unless one of its number is pending. -/
def Proc.raise (proc : Proc Pc) (signo : Nat) (sender : Pid) : Proc Pc :=
  if proc.pending.any fun entry => entry.1 = signo then proc
  else { proc with pending := proc.pending ++ [(signo, sender)] }

def Proc.drop (proc : Proc Pc) (signo : Nat) : Proc Pc :=
  { proc with pending := proc.pending.filter fun entry => entry.1 ≠ signo }

def Proc.enter (proc : Proc Pc) (signo : Nat) (sender : Pid) : Proc Pc :=
  { proc.drop signo with frames := ⟨signo, .entered sender⟩ :: proc.frames }

def senderOf (pending : List (Nat × Pid)) (signo : Nat) : Option Pid :=
  (pending.find? fun entry => entry.1 = signo).map Prod.snd

/-- A signal waits while it is in the mask or its own handler runs. -/
def Blocked (mask : List Nat) (frames : List Frame) (signo : Nat) : Prop :=
  signo ≠ sigkill ∧ signo ≠ sigstop ∧ (signo ∈ mask ∨ ∃ frame ∈ frames, frame.signo = signo)

instance (mask : List Nat) (frames : List Frame) (signo : Nat) :
    Decidable (Blocked mask frames signo) :=
  inferInstanceAs (Decidable (_ ∧ _ ∧ (_ ∨ _)))

def pidArg (pid : Pid) : VaArg := .int (BitVec.ofNat 32 pid)

def signame (signo : Nat) : Option CString :=
  (signals.find? fun sig => sig.signo = signo).map NgxSignal.signame

/-- `ngx_signal_handler` up to `ngx_process_get_status`. The loop that looks for the
signal ends at the NULL name if there is none. -/
def ngxSignalHandler (globals : Globals) (signo : Nat) (siPid : Pid) :
    Option (Globals × LogCall) := do
  let name ← signame signo
  let globals :=
    match globals.ngxProcess with
    | .master => if signo = sigchld then { globals with ngxReap := 1 } else globals
    | .worker => globals
  let number := VaArg.int (BitVec.ofNat 32 signo)
  let action := VaArg.str (literal "")
  if siPid ≠ 0 then
    some (globals, { level := ngxLogNotice, err := 0,
                     fmt := utf8 "signal %d (%s) received from %P%s",
                     args := [number, .str name, pidArg siPid, action] })
  else
    some (globals, { level := ngxLogNotice, err := 0, fmt := utf8 "signal %d (%s) received %s",
                     args := [number, .str name, action] })

def eintr : Nat := 4
def echild : Nat := 10

inductive WaitResult
  /-- 0: no child has ended -/
  | running
  /-- -1 and `errno` -/
  | failed (err : Nat)
  | ended (pid : Pid) (status : Nat)
  deriving DecidableEq

def wtermsig (status : Nat) : Nat := status % 128

def wexitstatus (status : Nat) : Nat := status / 256 % 256

def endedCall (pid : Pid) (status : Nat) : LogCall :=
  if wtermsig status ≠ 0 then
    { level := ngxLogAlert, err := 0, fmt := utf8 "pid = %P exited on signal %d!",
      args := [pidArg pid, .int (BitVec.ofNat 32 (wtermsig status))] }
  else
    { level := ngxLogNotice, err := 0, fmt := utf8 "pid = %P exited with code %d!",
      args := [pidArg pid, .int (BitVec.ofNat 32 (wexitstatus status))] }

/-- A round of the loop of `ngx_process_get_status`: `one` of the next round, if there
is one, and what is logged. -/
def getStatusRound (one : Bool) : WaitResult → Option Bool × List LogCall
  | .running => (none, [])
  | .failed err =>
      if err = eintr then (some one, [])
      else if err = echild ∧ one then (none, [])
      else if err = echild then
        (none, [{ level := ngxLogInfo, err := err, fmt := utf8 "waitpid() failed!", args := [] }])
      else
        (none, [{ level := ngxLogAlert, err := err, fmt := utf8 "waitpid() failed!", args := [] }])
  | .ended pid status => (some true, [endedCall pid status])

inductive MasterPc
  /-- before `sigprocmask` -/
  | entry
  | masked
  /-- in the loop of `ngx_start_worker_processes` -/
  | spawning (i : Nat)
  /-- before `sigsuspend` -/
  | top
  | suspended
  | sleeping
  | ended (signo : Nat)
  deriving DecidableEq

inductive WorkerPc
  /-- `fork` has returned 0 -/
  | forked
  /-- `ngx_pid` is set, before `ngx_worker_process_cycle` -/
  | named
  /-- before the `sigprocmask` of `ngx_worker_process_init` -/
  | typed
  | unmasked
  /-- behind `CThreadPool::Create` -/
  | created
  /-- behind `Initialize_subproc` -/
  | initialized
  /-- in the loop -/
  | serving
  deriving DecidableEq

def WorkerPc.threaded : WorkerPc → Bool
  | .created | .initialized | .serving => true
  | _ => false

/-- What `main` was started with, which signals were ignored then, and `WorkerProcesses` and
`LogLevel`. -/
structure Setting where
  ignored : Nat → Bool
  argv : List (List Byte)
  workerProcesses : Int
  logLevel : Int

/-- What the processes do with a signal once `ngx_init_signals` has returned 0. -/
def disposition (setting : Setting) : Nat → Disposition :=
  (ngxInitSignals (fun _ => true) 0 fun signo =>
    if setting.ignored signo then .ign else .dfl).1

/-- A line of the log file, which all processes append to: which process wrote it and
which `ngx_pid` it carries. -/
structure LogLine where
  writer : Pid
  ngxPid : Pid
  call : LogCall

/-- The kernel's table of these processes and the log; which workers were started, how
workers ended and which of those ends `waitpid` returned are ghosts. -/
structure Processes where
  masterPid : Pid
  master : Proc MasterPc
  alive : List Pid
  worker : Pid → Proc WorkerPc
  zombies : List (Pid × Nat)
  log : List LogLine
  started : List Pid
  ended : List (Pid × Nat)
  reaped : List (Pid × Nat)

namespace Processes

/-- The process `writer`, whose variables are `globals`, logs what is not above its level. -/
def note (s : Processes) (writer : Pid) (globals : Globals) (calls : List LogCall) : Processes :=
  let written := calls.filter fun call => ¬(call.level : Int) > globals.logLevel
  { s with log := s.log ++ written.map fun call => ⟨writer, globals.ngxPid, call⟩ }

def masterNote (s : Processes) (calls : List LogCall) : Processes :=
  s.note s.masterPid s.master.globals calls

def setMaster (s : Processes) (master : Proc MasterPc) : Processes := { s with master := master }

def setWorker (s : Processes) (pid : Pid) (proc : Proc WorkerPc) : Processes :=
  { s with worker := Function.update s.worker pid proc }

def endWorker (s : Processes) (pid : Pid) (status : Nat) : Processes :=
  { s with
    alive := s.alive.erase pid
    zombies := s.zombies ++ [(pid, status)]
    master := s.master.raise sigchld pid
    ended := s.ended ++ [(pid, status)] }

end Processes

def blockSet : List Nat :=
  [sigchld, sigalrm, sigio, sigint, sighup, sigusr1, sigusr2, sigwinch, sigterm, sigquit]

def masterProcess : List Byte := utf8 "master process"

def masterTitle (argv : List (List Byte)) : Option (List Byte) :=
  let size := masterProcess.length + 1 + (argv.map fun arg => arg.length + 1).sum
  if size < 1000 then some (masterProcess ++ utf8 " " ++ argv.flatten) else none

def ngxWorkerName : List Byte := utf8 "worker process"

/-- The mask that holds where the master is: `sigsuspend` has an empty one. -/
def masterMask (master : Proc MasterPc) : List Nat :=
  if master.pc = .suspended then [] else master.mask

/-- The handler on top returns; `sigsuspend` returns when the last one has. -/
def Proc.leave (master : Proc MasterPc) : Proc MasterPc :=
  let frames := master.frames.tail
  { master with
    frames := frames
    pc := if frames = [] ∧ master.pc = .suspended then .sleeping else master.pc }

section Master

variable (setting : Setting) (s : Processes)

def stepBlock (ok : Bool) (errno : Nat) : Option Processes :=
  if s.master.pc = .entry ∧ s.master.frames = [] then
    if ok then
      some (s.setMaster { s.master with pc := .masked, mask := s.master.mask ++ blockSet })
    else
      some ((s.masterNote
        [{ level := ngxLogAlert, err := errno,
           fmt := utf8 "ngx_master_process_cycle()中sigprocmask()失败!", args := [] }]).setMaster
        { s.master with pc := .masked })
  else none

def titleCalls (master : Globals) : List LogCall :=
  match masterTitle setting.argv with
  | none => []
  | some title =>
      [{ level := ngxLogNotice, err := 0, fmt := utf8 "%s %P 【master进程】启动并开始运行......!",
         args := [.str (cString title), pidArg master.ngxPid] }]

def stepTitle : Option Processes :=
  if s.master.pc = .masked ∧ s.master.frames = [] then
    some ((s.masterNote (titleCalls setting s.master.globals)).setMaster
      { s.master with pc := .spawning 0 })
  else none

/-- `ngx_spawn_process`, with the child that `fork` makes if it makes one. -/
def stepFork (child : Option Pid) (errno : Nat) : Option Processes :=
  match s.master.pc with
  | .spawning i =>
      if s.master.frames = [] ∧ (i : Int) < setting.workerProcesses then
        match child with
        | none =>
            some ((s.masterNote
              [{ level := ngxLogAlert, err := errno,
                 fmt := utf8
                  "ngx_spawn_process()fork()产生子进程num=%d,procname=\"%s\"失败!",
                 args := [.int (BitVec.ofNat 32 i), .str (cString ngxWorkerName)] }]).setMaster
              { s.master with pc := .spawning (i + 1) })
        | some pid =>
            if pid ≠ 0 ∧ pid ≠ s.masterPid ∧ pid ∉ s.alive ∧ pid ∉ s.zombies.map Prod.fst then
              some { s with
                master := { s.master with pc := .spawning (i + 1) }
                alive := s.alive ++ [pid]
                worker := Function.update s.worker pid
                  { globals := s.master.globals, mask := s.master.mask, pending := [],
                    frames := [], pc := .forked }
                started := s.started ++ [pid] }
            else none
      else none
  | _ => none

def stepEnter : Option Processes :=
  match s.master.pc with
  | .spawning i =>
      if s.master.frames = [] ∧ ¬ (i : Int) < setting.workerProcesses then
        some (s.setMaster { s.master with pc := .top })
      else none
  | _ => none

def stepSuspend : Option Processes :=
  if s.master.pc = .top ∧ s.master.frames = [] then
    some (s.setMaster { s.master with pc := .suspended })
  else none

def stepAwake : Option Processes :=
  if s.master.pc = .sleeping ∧ s.master.frames = [] then
    some (s.setMaster { s.master with pc := .top })
  else none

def stepDeliver (signo : Nat) : Option Processes :=
  match senderOf s.master.pending signo with
  | none => none
  | some sender =>
      if Blocked (masterMask s.master) s.master.frames signo then none
      else
        match disposition setting signo with
        | .handler => some (s.setMaster (s.master.enter signo sender))
        | .ign => some (s.setMaster (s.master.drop signo))
        | .dfl =>
            if defaultAction signo = .terminate then
              some (s.setMaster
                { s.master with pc := .ended signo, pending := [], frames := [] })
            else some (s.setMaster (s.master.drop signo))

def stepHandle : Option Processes :=
  match s.master.frames with
  | ⟨signo, .entered sender⟩ :: rest =>
      match ngxSignalHandler s.master.globals signo sender with
      | none => none
      | some (globals, call) =>
          let master := { s.master with globals := globals }
          some ((s.masterNote [call]).setMaster
            (if signo = sigchld then { master with frames := ⟨signo, .waiting false⟩ :: rest }
            else master.leave))
  | _ => none

def Answered : WaitResult → Prop
  | .running => s.alive ≠ [] ∧ s.zombies = []
  | .failed err => err = eintr ∨ err = echild ∧ s.alive = [] ∧ s.zombies = []
  | .ended pid status => (pid, status) ∈ s.zombies

instance (result : WaitResult) : Decidable (Answered s result) :=
  match result with
  | .running => inferInstanceAs (Decidable (s.alive ≠ [] ∧ s.zombies = []))
  | .failed err =>
      inferInstanceAs (Decidable (err = eintr ∨ err = echild ∧ s.alive = [] ∧ s.zombies = []))
  | .ended pid status => inferInstanceAs (Decidable ((pid, status) ∈ s.zombies))

def take (result : WaitResult) : Processes :=
  match result with
  | .ended pid status =>
      { s with
        zombies := s.zombies.erase (pid, status)
        reaped := s.reaped ++ [(pid, status)] }
  | _ => s

def stepWait (result : WaitResult) : Option Processes :=
  match s.master.frames with
  | ⟨signo, .waiting one⟩ :: rest =>
      if Answered s result then
        let round := getStatusRound one result
        some (((take s result).masterNote round.2).setMaster
          (match round.1 with
          | some one => { s.master with frames := ⟨signo, .waiting one⟩ :: rest }
          | none => s.master.leave))
      else none
  | _ => none

end Master

section Worker

variable (setting : Setting) (s : Processes)

def exitStatus (code : Nat) : Nat := code % 256 * 256

def killedStatus (signo : Nat) (core : Bool) : Nat := signo + if core then 128 else 0

def initFailed : Nat := 254

def epollFailed : Nat := 2

inductive WorkerAct
  /-- `ngx_parent` and `ngx_pid` are set -/
  | rename
  /-- `ngx_process` is set -/
  | retype
  | unmask (ok : Bool) (errno : Nat)
  | create (ok : Bool)
  | initializeSubproc (ok : Bool)
  | epollInit (ok : Bool)
  | deliver (signo : Nat) (core : Bool)
  | handle (index : Nat)
  | wait (index : Nat) (err : Nat)
  deriving DecidableEq

/-- Before there are threads a signal is blocked while its handler runs, and the
process goes on when no handler runs. -/
def workerFrames (proc : Proc WorkerPc) : List Frame :=
  if proc.pc.threaded then [] else proc.frames

def workerMain (pid : Pid) : WorkerAct → Option Processes
  | .rename =>
      let proc := s.worker pid
      if proc.pc = .forked then
        some (s.setWorker pid { proc with
          globals := { proc.globals with ngxParent := proc.globals.ngxPid, ngxPid := pid }
          pc := .named })
      else none
  | .retype =>
      let proc := s.worker pid
      if proc.pc = .named then
        some (s.setWorker pid { proc with
          globals := { proc.globals with ngxProcess := .worker }
          pc := .typed })
      else none
  | .unmask ok errno =>
      let proc := s.worker pid
      if proc.pc = .typed then
        if ok then some (s.setWorker pid { proc with mask := [], pc := .unmasked })
        else some ((s.note pid proc.globals
          [{ level := ngxLogAlert, err := errno,
             fmt := utf8 "ngx_worker_process_init()中sigprocmask()失败!", args := [] }]).setWorker
          pid { proc with pc := .unmasked })
      else none
  | .create ok =>
      let proc := s.worker pid
      if proc.pc = .unmasked then
        if ok then some (s.setWorker pid { proc with pc := .created })
        else some (s.endWorker pid (exitStatus initFailed))
      else none
  | .initializeSubproc ok =>
      let proc := s.worker pid
      if proc.pc = .created then
        if ok then some (s.setWorker pid { proc with pc := .initialized })
        else some (s.endWorker pid (exitStatus initFailed))
      else none
  | .epollInit ok =>
      let proc := s.worker pid
      if proc.pc = .initialized then
        if ok then
          some ((s.note pid proc.globals
            [{ level := ngxLogNotice, err := 0,
               fmt := utf8 "%s %P 【worker进程】启动并开始运行......!",
               args := [.str (cString ngxWorkerName), pidArg proc.globals.ngxPid] }]).setWorker
            pid { proc with pc := .serving })
        else some (s.endWorker pid (exitStatus epollFailed))
      else none
  | _ => none

def workerDeliver (pid : Pid) (signo : Nat) (core : Bool) : Option Processes :=
  let proc := s.worker pid
  match senderOf proc.pending signo with
  | none => none
  | some sender =>
      if Blocked proc.mask (workerFrames proc) signo then none
      else
        match disposition setting signo with
        | .handler => some (s.setWorker pid (proc.enter signo sender))
        | .ign => some (s.setWorker pid (proc.drop signo))
        | .dfl =>
            match defaultAction signo with
            | .terminate => some (s.endWorker pid (killedStatus signo core))
            | .ignore => some (s.setWorker pid (proc.drop signo))
            -- The parent is told of a child that stops or goes on.
            | _ => some ((s.setWorker pid (proc.drop signo)).setMaster
                (s.master.raise sigchld pid))

def workerHandle (pid : Pid) (index : Nat) : Option Processes :=
  let proc := s.worker pid
  if proc.pc.threaded ∨ index = 0 then
    match proc.frames[index]? with
    | some ⟨signo, .entered sender⟩ =>
        match ngxSignalHandler proc.globals signo sender with
        | none => none
        | some (globals, call) =>
            some ((s.note pid proc.globals [call]).setWorker pid { proc with
              globals := globals
              frames :=
                if signo = sigchld then proc.frames.set index ⟨signo, .waiting false⟩
                else proc.frames.eraseIdx index })
    | _ => none
  else none

/-- A round of `ngx_process_get_status` in a worker, which has no children. -/
def workerWait (pid : Pid) (index err : Nat) : Option Processes :=
  let proc := s.worker pid
  if (proc.pc.threaded ∨ index = 0) ∧ (err = eintr ∨ err = echild) then
    match proc.frames[index]? with
    | some ⟨signo, .waiting one⟩ =>
        let round := getStatusRound one (.failed err)
        some ((s.note pid proc.globals round.2).setWorker pid { proc with
          frames :=
            match round.1 with
            | some one => proc.frames.set index ⟨signo, .waiting one⟩
            | none => proc.frames.eraseIdx index })
    | _ => none
  else none

def workerStep (pid : Pid) (act : WorkerAct) : Option Processes :=
  if pid ∈ s.alive then
    match act with
    | .deliver signo core => workerDeliver setting s pid signo core
    | .handle index => workerHandle s pid index
    | .wait index err => workerWait s pid index err
    | act => if workerFrames (s.worker pid) = [] then workerMain s pid act else none
  else none

end Worker

def stepRaise (s : Processes) (target : Pid) (signo : Nat) (sender : Pid) : Option Processes :=
  if 1 ≤ signo ∧ signo ≤ 64 then
    if target = s.masterPid then some (s.setMaster (s.master.raise signo sender))
    else if target ∈ s.alive then
      some (s.setWorker target ((s.worker target).raise signo sender))
    else none
  else none

inductive Act
  | block (ok : Bool) (errno : Nat)
  | title
  | fork (child : Option Pid) (errno : Nat)
  | enter
  | suspend
  | awake
  | deliver (signo : Nat)
  | handle
  | wait (result : WaitResult)
  | raise (target : Pid) (signo : Nat) (sender : Pid)
  | worker (pid : Pid) (act : WorkerAct)
  deriving DecidableEq

def step (setting : Setting) (s : Processes) : Act → Option Processes
  | .block ok errno => stepBlock s ok errno
  | .title => stepTitle setting s
  | .fork child errno => stepFork setting s child errno
  | .enter => stepEnter setting s
  | .suspend => stepSuspend s
  | .awake => stepAwake s
  | .deliver signo => stepDeliver setting s signo
  | .handle => stepHandle s
  | .wait result => stepWait s result
  | .raise target signo sender => stepRaise s target signo sender
  | .worker pid act => workerStep setting s pid act

/-- A process that enters `ngx_master_process_cycle`, with its variables, its mask and
the signals that are pending. -/
def masterOnly (setting : Setting) (pid parent : Pid) (reap : Nat) (mask : List Nat)
    (pending : List (Nat × Pid)) : Processes where
  masterPid := pid
  master :=
    { globals := ⟨.master, pid, parent, reap, setting.logLevel⟩, mask := mask, pending := pending,
      frames := [], pc := .entry }
  alive := []
  worker := fun _ =>
    { globals := ⟨.master, pid, parent, reap, setting.logLevel⟩, mask := [], pending := [],
      frames := [], pc := .forked }
  zombies := []
  log := []
  started := []
  ended := []
  reaped := []

def Fresh (setting : Setting) (s : Processes) : Prop :=
  ∃ pid parent reap mask pending, s = masterOnly setting pid parent reap mask pending

def Reachable (setting : Setting) (allowed : Processes → Act → Prop) : Processes → Prop :=
  TransitionSystem.Reachable (Fresh setting) (step setting) allowed

def sampleSetting : Setting where
  ignored := fun _ => false
  argv := []
  workerProcesses := 1
  logLevel := 8

def run (allowed : Processes → Act → Prop) [∀ s act, Decidable (allowed s act)]
    (acts : List Act) : Option Processes :=
  exec (step sampleSetting) (fun s act => decide (allowed s act))
    (masterOnly sampleSetting 5 1 0 [] []) acts

theorem reachable_of_seen {allowed : Processes → Act → Prop}
    [∀ s act, Decidable (allowed s act)] {acts : List Act} {Value : Type}
    {look : Processes → Value} {value : Value} (seen : (run allowed acts).map look = some value) :
    ∃ s, Reachable sampleSetting allowed s ∧ look s = value := by
  obtain ⟨s, executed, same⟩ := Option.map_eq_some_iff.mp seen
  have steps : Steps (step sampleSetting) allowed (masterOnly sampleSetting 5 1 0 [] []) s :=
    steps_of_exec (fun _ _ => of_decide_eq_true) executed
  exact ⟨s, ⟨_, ⟨5, 1, 0, [], [], rfl⟩, steps⟩, same⟩

end NgxServer.Signals
