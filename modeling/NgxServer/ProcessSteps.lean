import NgxServer.Signals

/-!
# What the steps of the processes do

Which signals have a handler, and for each action of the master, of a worker and of the
kernel what it changes.
-/

namespace NgxServer.ProcessSteps

open NgxServer.Comm NgxServer.Log NgxServer.Signals

set_option autoImplicit false

def handledSignals : List Nat := [sighup, sigint, sigterm, sigchld, sigquit, sigio]

theorem handler_iff (setting : Setting) (signo : Nat) :
    disposition setting signo = .handler ↔ signo ∈ handledSignals := by
  simp only [disposition, ngxInitSignals, initLoop, signals, if_true, Function.update_apply,
    handledSignals, List.mem_cons, List.not_mem_nil, or_false]
  split_ifs <;> simp_all [sighup, sigint, sigterm, sigchld, sigquit, sigio, sigsys]

theorem signame_some {signo : Nat} (known : signo ∈ handledSignals) :
    ∃ name, signame signo = some name := by
  simp only [handledSignals, List.mem_cons, List.not_mem_nil, or_false] at known
  rcases known with rfl | rfl | rfl | rfl | rfl | rfl
  all_goals exact ⟨_, rfl⟩

theorem raise_rest {Pc : Type} (proc : Proc Pc) (signo : Nat) (sender : Pid) :
    ∃ pending, proc.raise signo sender = { proc with pending := pending } := by
  unfold Proc.raise
  split
  · exact ⟨proc.pending, rfl⟩
  · exact ⟨_, rfl⟩

def endFormats : List (List Byte) :=
  [utf8 "pid = %P exited on signal %d!", utf8 "pid = %P exited with code %d!"]

def Plain (calls : List LogCall) : Prop := ∀ call ∈ calls, call.fmt ∉ endFormats

theorem plain_nil : Plain [] := fun _ listed => nomatch listed

theorem plain_single {level err : Nat} {fmt : List Byte} {args : List Printf.VaArg}
    (other : fmt ∉ endFormats) :
    Plain [{ level := level, err := err, fmt := fmt, args := args }] := by
  intro found listed
  rw [List.mem_singleton.mp listed]
  exact other

theorem handler_plain {globals after : Globals} {signo : Nat} {sender : Pid} {call : LogCall}
    (handled : ngxSignalHandler globals signo sender = some (after, call)) : Plain [call] := by
  unfold ngxSignalHandler at handled
  cases name : signame signo with
  | none =>
      rw [name] at handled
      cases handled
  | some found =>
      rw [name] at handled
      dsimp only [Option.bind_eq_bind, Option.bind_some] at handled
      split at handled
      · cases handled
        exact plain_single (by decide)
      · cases handled
        exact plain_single (by decide)

theorem handler_globals {globals after : Globals} {signo : Nat} {sender : Pid} {call : LogCall}
    (handled : ngxSignalHandler globals signo sender = some (after, call)) :
    { after with ngxReap := globals.ngxReap } = globals := by
  unfold ngxSignalHandler at handled
  cases name : signame signo with
  | none =>
      rw [name] at handled
      cases handled
  | some found =>
      rw [name] at handled
      dsimp only [Option.bind_eq_bind, Option.bind_some] at handled
      obtain ⟨type, pid, parent, reap⟩ := globals
      split at handled <;> cases handled
      all_goals
        cases type with
        | worker => rfl
        | master =>
            dsimp only
            split_ifs <;> rfl

theorem frames_running {frames : List Frame} {index : Nat} {frame : Frame}
    (here : frames[index]? = some frame) : frames ≠ [] := by
  intro none
  rw [none] at here
  cases here

theorem failed_plain (one : Bool) (err : Nat) : Plain (getStatusRound one (.failed err)).2 := by
  unfold getStatusRound
  dsimp only
  split_ifs
  · exact plain_nil
  · exact plain_nil
  · exact plain_single (by decide)
  · exact plain_single (by decide)

/-- The worker has left the mask of its parent. -/
def Settled : WorkerPc → Prop
  | .forked | .named | .typed => False
  | _ => True

inductive WorkerChange (setting : Setting) (pid : Pid) (proc : Proc WorkerPc) :
    Proc WorkerPc → Prop
  | rename (here : proc.pc = .forked) : WorkerChange setting pid proc
      { proc with
        globals := { proc.globals with ngxParent := proc.globals.ngxPid, ngxPid := pid }
        pc := .named }
  | retype (here : proc.pc = .named) : WorkerChange setting pid proc
      { proc with globals := { proc.globals with ngxProcess := .worker }, pc := .typed }
  | unmask (mask : List Nat) (here : proc.pc = .typed) : WorkerChange setting pid proc
      { proc with mask := mask, pc := .unmasked }
  | advance (pc : WorkerPc) (here : Settled proc.pc) (there : Settled pc) :
      WorkerChange setting pid proc { proc with pc := pc }
  | enter (signo : Nat) (sender : Pid) (free : ¬ Blocked proc.mask (workerFrames proc) signo)
      (handles : disposition setting signo = .handler) :
      WorkerChange setting pid proc (proc.enter signo sender)
  | drop (signo : Nat) : WorkerChange setting pid proc (proc.drop signo)
  | handle (globals : Globals) (frames : List Frame) (running : proc.frames ≠ [])
      (same : { globals with ngxReap := proc.globals.ngxReap } = proc.globals) :
      WorkerChange setting pid proc { proc with globals := globals, frames := frames }

/-- How a worker may end: `exit` before it serves, or a signal that is not in the table. -/
def EndsWith (setting : Setting) (status : Nat) : Prop :=
  status = exitStatus initFailed ∨ status = exitStatus epollFailed ∨
    ∃ signo core, status = killedStatus signo core ∧ disposition setting signo = .dfl

/-- A worker logs when it has its name, or in a handler. -/
def Speaks (proc : Proc WorkerPc) (calls : List LogCall) : Prop :=
  calls = [] ∨ proc.pc ≠ .forked ∨ proc.frames ≠ []

inductive Stepped (setting : Setting) (s : Processes) : Act → Processes → Prop
  | block {ok : Bool} {errno : Nat} (mask : List Nat) (calls : List LogCall)
      (here : s.master.pc = .entry) (idle : s.master.frames = [])
      (blocks : ok = true → mask = s.master.mask ++ blockSet) (plain : Plain calls) :
      Stepped setting s (.block ok errno)
        ((s.masterNote calls).setMaster { s.master with pc := .masked, mask := mask })
  | title (here : s.master.pc = .masked) (idle : s.master.frames = [])
      (plain : Plain (titleCalls setting s.master.globals)) : Stepped setting s .title
        ((s.masterNote (titleCalls setting s.master.globals)).setMaster
          { s.master with pc := .spawning 0 })
  | forkFailed {errno : Nat} (i : Nat) (calls : List LogCall)
      (here : s.master.pc = .spawning i) (idle : s.master.frames = [])
      (more : (i : Int) < setting.workerProcesses) (plain : Plain calls) :
      Stepped setting s (.fork none errno)
        ((s.masterNote calls).setMaster { s.master with pc := .spawning (i + 1) })
  | forked {errno : Nat} (i : Nat) (pid : Pid) (here : s.master.pc = .spawning i)
      (idle : s.master.frames = []) (more : (i : Int) < setting.workerProcesses)
      (fresh : pid ∉ s.alive) (other : pid ≠ s.masterPid) :
      Stepped setting s (.fork (some pid) errno)
        { s with
          master := { s.master with pc := .spawning (i + 1) }
          alive := s.alive ++ [pid]
          worker := Function.update s.worker pid
            { globals := s.master.globals, mask := s.master.mask, pending := [],
              frames := [], pc := .forked }
          started := s.started ++ [pid] }
  | enter (i : Nat) (here : s.master.pc = .spawning i) (idle : s.master.frames = [])
      (all : ¬ (i : Int) < setting.workerProcesses) : Stepped setting s .enter
        (s.setMaster { s.master with pc := .top })
  | suspend (here : s.master.pc = .top) (idle : s.master.frames = []) :
      Stepped setting s .suspend (s.setMaster { s.master with pc := .suspended })
  | awake (here : s.master.pc = .sleeping) (idle : s.master.frames = []) :
      Stepped setting s .awake (s.setMaster { s.master with pc := .top })
  | entered {signo : Nat} (sender : Pid) (found : senderOf s.master.pending signo = some sender)
      (free : ¬ Blocked (masterMask s.master) s.master.frames signo)
      (handles : disposition setting signo = .handler) : Stepped setting s (.deliver signo)
        (s.setMaster (s.master.enter signo sender))
  | dropped {signo : Nat} (sender : Pid) (found : senderOf s.master.pending signo = some sender)
      (free : ¬ Blocked (masterMask s.master) s.master.frames signo)
      (none : disposition setting signo ≠ .handler) : Stepped setting s (.deliver signo)
        (s.setMaster (s.master.drop signo))
  | killed {signo : Nat} (sender : Pid) (found : senderOf s.master.pending signo = some sender)
      (default : disposition setting signo = .dfl) (lethal : defaultAction signo = .terminate) :
      Stepped setting s (.deliver signo)
        (s.setMaster { s.master with pc := .ended signo, pending := [], frames := [] })
  | handled (signo : Nat) (sender : Pid) (rest : List Frame) (globals : Globals)
      (call : LogCall) (here : s.master.frames = ⟨signo, .entered sender⟩ :: rest)
      (runs : ngxSignalHandler s.master.globals signo sender = some (globals, call))
      (other : signo ≠ sigchld) : Stepped setting s .handle
        ((s.masterNote [call]).setMaster { s.master with globals := globals }.leave)
  | asked (sender : Pid) (rest : List Frame) (globals : Globals)
      (call : LogCall) (here : s.master.frames = ⟨sigchld, .entered sender⟩ :: rest)
      (runs : ngxSignalHandler s.master.globals sigchld sender = some (globals, call)) :
      Stepped setting s .handle
        ((s.masterNote [call]).setMaster
          { s.master with globals := globals, frames := ⟨sigchld, .waiting false⟩ :: rest })
  | again (signo : Nat) (one : Bool) (rest : List Frame)
      (here : s.master.frames = ⟨signo, .waiting one⟩ :: rest) :
      Stepped setting s (.wait (.failed eintr)) s
  | reaped (signo : Nat) (one : Bool) (rest : List Frame) (pid : Pid) (status : Nat)
      (here : s.master.frames = ⟨signo, .waiting one⟩ :: rest)
      (there : (pid, status) ∈ s.zombies) : Stepped setting s (.wait (.ended pid status))
        (((take s (.ended pid status)).masterNote [endedCall pid status]).setMaster
          { s.master with frames := ⟨signo, .waiting true⟩ :: rest })
  | left {result : WaitResult} (signo : Nat) (one : Bool) (rest : List Frame)
      (calls : List LogCall) (here : s.master.frames = ⟨signo, .waiting one⟩ :: rest)
      (none : s.zombies = []) (plain : Plain calls) : Stepped setting s (.wait result)
        ((s.masterNote calls).setMaster s.master.leave)
  | raised {signo : Nat} {sender : Pid} :
      Stepped setting s (.raise s.masterPid signo sender)
        (s.setMaster (s.master.raise signo sender))
  | raisedWorker {target : Pid} {signo : Nat} {sender : Pid} (other : target ≠ s.masterPid)
      (listed : target ∈ s.alive) : Stepped setting s (.raise target signo sender)
        (s.setWorker target ((s.worker target).raise signo sender))
  | worker {pid : Pid} {act : WorkerAct} (proc : Proc WorkerPc) (calls : List LogCall)
      (listed : pid ∈ s.alive) (plain : Plain calls) (speaks : Speaks (s.worker pid) calls)
      (change : WorkerChange setting pid (s.worker pid) proc) :
      Stepped setting s (.worker pid act)
        ((s.note pid (s.worker pid).globals calls).setWorker pid proc)
  | workerEnds {pid : Pid} {act : WorkerAct} (status : Nat) (listed : pid ∈ s.alive)
      (why : EndsWith setting status) : Stepped setting s (.worker pid act)
        (s.endWorker pid status)
  | workerTells {pid : Pid} {act : WorkerAct} (proc : Proc WorkerPc) (listed : pid ∈ s.alive)
      (change : WorkerChange setting pid (s.worker pid) proc) :
      Stepped setting s (.worker pid act)
        ((s.setWorker pid proc).setMaster (s.master.raise sigchld pid))

section Inversion

variable {setting : Setting} {s after : Processes}

theorem stepped_block {ok : Bool} {errno : Nat} (taken : stepBlock s ok errno = some after) :
    Stepped setting s (.block ok errno) after := by
  unfold stepBlock at taken
  split at taken
  case isFalse => cases taken
  case isTrue guard =>
    obtain ⟨here, idle⟩ := guard
    split at taken
    case isTrue =>
      cases taken
      have stepped : Stepped setting s (.block ok errno) _ :=
        .block (s.master.mask ++ blockSet) [] here idle (fun _ => rfl) plain_nil
      simpa [Processes.masterNote, Processes.note] using stepped
    case isFalse failed =>
      cases taken
      exact .block s.master.mask _ here idle (fun ok => absurd ok failed) (plain_single (by decide))

theorem stepped_title (taken : stepTitle setting s = some after) :
    Stepped setting s .title after := by
  unfold stepTitle at taken
  split at taken
  case isFalse => cases taken
  case isTrue guard =>
    obtain ⟨here, idle⟩ := guard
    cases taken
    apply Stepped.title here idle
    unfold titleCalls
    split
    · exact plain_nil
    · exact plain_single (by decide)

theorem stepped_fork {child : Option Pid} {errno : Nat}
    (taken : stepFork setting s child errno = some after) :
    Stepped setting s (.fork child errno) after := by
  unfold stepFork at taken
  split at taken
  case h_2 => cases taken
  case h_1 i here =>
    split at taken
    case isFalse => cases taken
    case isTrue guard =>
      obtain ⟨idle, more⟩ := guard
      split at taken
      case h_1 =>
        cases taken
        exact .forkFailed i _ here idle more (plain_single (by decide))
      case h_2 pid =>
        split at taken
        case isFalse => cases taken
        case isTrue fresh =>
          cases taken
          exact .forked i pid here idle more fresh.2.2.1 fresh.2.1

theorem stepped_enter (taken : stepEnter setting s = some after) :
    Stepped setting s .enter after := by
  unfold stepEnter at taken
  split at taken
  case h_2 => cases taken
  case h_1 i here =>
    split at taken
    case isFalse => cases taken
    case isTrue guard =>
      cases taken
      exact .enter i here guard.1 guard.2

theorem stepped_deliver {signo : Nat} (taken : stepDeliver setting s signo = some after) :
    Stepped setting s (.deliver signo) after := by
  unfold stepDeliver at taken
  split at taken
  case h_1 => cases taken
  case h_2 sender found =>
    split at taken
    case isTrue => cases taken
    case isFalse free =>
      split at taken
      case h_1 handles =>
        cases taken
        exact .entered sender found free handles
      case h_2 ignores =>
        cases taken
        exact .dropped sender found free (by rw [ignores]; decide)
      case h_3 default =>
        split at taken
        case isTrue lethal =>
          cases taken
          exact .killed sender found default lethal
        case isFalse =>
          cases taken
          exact .dropped sender found free (by rw [default]; decide)

theorem stepped_handle (taken : stepHandle s = some after) :
    Stepped setting s .handle after := by
  unfold stepHandle at taken
  split at taken
  case h_2 => cases taken
  case h_1 signo sender rest here =>
    split at taken
    case h_1 => cases taken
    case h_2 globals call runs =>
      cases taken
      by_cases child : signo = sigchld
      · subst child
        rw [if_pos rfl]
        exact .asked sender rest globals call here runs
      · rw [if_neg child]
        exact .handled signo sender rest globals call here runs child

theorem stepped_wait {result : WaitResult} (taken : stepWait s result = some after) :
    Stepped setting s (.wait result) after := by
  unfold stepWait at taken
  split at taken
  case h_2 => cases taken
  case h_1 signo one rest here =>
    split at taken
    case isFalse => cases taken
    case isTrue answered =>
      cases taken
      cases result with
      | running =>
          exact .left signo one rest _ here answered.2 plain_nil
      | ended pid status => exact .reaped signo one rest pid status here answered
      | failed err =>
          rcases answered with interrupted | ⟨childless, -, none⟩
          · subst interrupted
            have same : ((take s (.failed eintr)).masterNote []).setMaster
                { s.master with frames := ⟨signo, .waiting one⟩ :: rest } = s := by
              rw [← here]
              simp [take, Processes.masterNote, Processes.note, Processes.setMaster]
            have stepped : Stepped setting s (.wait (.failed eintr)) s :=
              .again signo one rest here
            exact same.symm ▸ stepped
          · subst childless
            have quits : (getStatusRound one (.failed echild)).1 = Option.none := by
              cases one <;> rfl
            simp only [quits]
            exact .left signo one rest _ here none (failed_plain one echild)

inductive WorkerStepped (setting : Setting) (s : Processes) (pid : Pid) : Processes → Prop
  | own (proc : Proc WorkerPc) (calls : List LogCall) (plain : Plain calls)
      (speaks : Speaks (s.worker pid) calls)
      (change : WorkerChange setting pid (s.worker pid) proc) :
      WorkerStepped setting s pid ((s.note pid (s.worker pid).globals calls).setWorker pid proc)
  | ends (status : Nat) (why : EndsWith setting status) :
      WorkerStepped setting s pid (s.endWorker pid status)
  | tells (proc : Proc WorkerPc) (change : WorkerChange setting pid (s.worker pid) proc) :
      WorkerStepped setting s pid
        ((s.setWorker pid proc).setMaster (s.master.raise sigchld pid))

theorem worker_quiet {pid : Pid} {proc : Proc WorkerPc}
    (change : WorkerChange setting pid (s.worker pid) proc) :
    WorkerStepped setting s pid (s.setWorker pid proc) := by
  have own : WorkerStepped setting s pid _ := .own proc [] plain_nil (Or.inl rfl) change
  simpa [Processes.note] using own

theorem worker_main_stepped {pid : Pid} {act : WorkerAct}
    (taken : workerMain s pid act = some after) : WorkerStepped setting s pid after := by
  unfold workerMain at taken
  split at taken
  case h_7 => cases taken
  case h_1 =>
    obtain ⟨here, same⟩ := Option.ite_none_right_eq_some.mp taken
    cases same
    exact worker_quiet (.rename here)
  case h_2 =>
    obtain ⟨here, same⟩ := Option.ite_none_right_eq_some.mp taken
    cases same
    exact worker_quiet (.retype here)
  case h_3 ok errno =>
    obtain ⟨here, same⟩ := Option.ite_none_right_eq_some.mp taken
    cases ok with
    | true =>
        cases same
        exact worker_quiet (.unmask [] here)
    | false =>
        cases same
        have named : (s.worker pid).pc ≠ .forked := by
          rw [here]
          decide
        exact .own _ _ (plain_single (by decide)) (Or.inr (Or.inl named)) (.unmask _ here)
  case h_4 ok =>
    obtain ⟨here, same⟩ := Option.ite_none_right_eq_some.mp taken
    have settled : Settled (s.worker pid).pc := by
      rw [here]
      trivial
    cases ok with
    | true =>
        cases same
        exact worker_quiet (.advance .created settled trivial)
    | false =>
        cases same
        exact .ends _ (Or.inl rfl)
  case h_5 ok =>
    obtain ⟨here, same⟩ := Option.ite_none_right_eq_some.mp taken
    have settled : Settled (s.worker pid).pc := by
      rw [here]
      trivial
    cases ok with
    | true =>
        cases same
        exact worker_quiet (.advance .initialized settled trivial)
    | false =>
        cases same
        exact .ends _ (Or.inl rfl)
  case h_6 ok =>
    obtain ⟨here, same⟩ := Option.ite_none_right_eq_some.mp taken
    have settled : Settled (s.worker pid).pc := by
      rw [here]
      trivial
    have named : (s.worker pid).pc ≠ .forked := by
      rw [here]
      decide
    cases ok with
    | true =>
        cases same
        exact .own _ _ (plain_single (by decide)) (Or.inr (Or.inl named))
          (.advance .serving settled trivial)
    | false =>
        cases same
        exact .ends _ (Or.inr (Or.inl rfl))

theorem worker_deliver_stepped {pid : Pid} {signo : Nat} {core : Bool}
    (taken : workerDeliver setting s pid signo core = some after) :
    WorkerStepped setting s pid after := by
  unfold workerDeliver at taken
  dsimp only at taken
  split at taken
  case h_1 => cases taken
  case h_2 sender found =>
    split at taken
    case isTrue => cases taken
    case isFalse free =>
      split at taken
      case h_1 handles =>
        cases taken
        exact worker_quiet (.enter signo sender free handles)
      case h_2 =>
        cases taken
        exact worker_quiet (.drop signo)
      case h_3 default =>
        split at taken
        case h_1 =>
          cases taken
          exact .ends _ (Or.inr (Or.inr ⟨signo, core, rfl, default⟩))
        case h_2 =>
          cases taken
          exact worker_quiet (.drop signo)
        case h_3 =>
          cases taken
          exact .tells _ (.drop signo)

theorem worker_handle_stepped {pid : Pid} {index : Nat}
    (taken : workerHandle s pid index = some after) : WorkerStepped setting s pid after := by
  unfold workerHandle at taken
  dsimp only at taken
  split at taken
  case isFalse => cases taken
  case isTrue =>
    split at taken
    case h_2 => cases taken
    case h_1 here =>
      split at taken
      case h_1 => cases taken
      case h_2 runs =>
        cases taken
        have running := frames_running here
        exact .own _ _ (handler_plain runs) (Or.inr (Or.inr running))
          (.handle _ _ running (handler_globals runs))

theorem worker_wait_stepped {pid : Pid} {index err : Nat}
    (taken : workerWait s pid index err = some after) : WorkerStepped setting s pid after := by
  unfold workerWait at taken
  dsimp only at taken
  split at taken
  case isFalse => cases taken
  case isTrue =>
    split at taken
    case h_2 => cases taken
    case h_1 one here =>
      cases taken
      have running := frames_running here
      exact .own _ _ (failed_plain one err) (Or.inr (Or.inr running)) (.handle _ _ running rfl)

theorem worker_stepped {pid : Pid} {act : WorkerAct}
    (taken : workerStep setting s pid act = some after) :
    pid ∈ s.alive ∧ WorkerStepped setting s pid after := by
  unfold workerStep at taken
  split at taken
  case isFalse => cases taken
  case isTrue listed =>
    refine ⟨listed, ?_⟩
    split at taken
    case h_1 => exact worker_deliver_stepped taken
    case h_2 => exact worker_handle_stepped taken
    case h_3 => exact worker_wait_stepped taken
    case h_4 =>
      split at taken
      case isTrue => exact worker_main_stepped taken
      case isFalse => cases taken

theorem stepped_of_step {act : Act} (taken : step setting s act = some after) :
    Stepped setting s act after := by
  cases act with
  | block ok errno => exact stepped_block taken
  | title => exact stepped_title taken
  | fork child errno => exact stepped_fork taken
  | enter => exact stepped_enter taken
  | suspend =>
      simp only [step, stepSuspend] at taken
      split at taken
      case isFalse => cases taken
      case isTrue guard =>
        cases taken
        exact .suspend guard.1 guard.2
  | awake =>
      simp only [step, stepAwake] at taken
      split at taken
      case isFalse => cases taken
      case isTrue guard =>
        cases taken
        exact .awake guard.1 guard.2
  | deliver signo => exact stepped_deliver taken
  | handle => exact stepped_handle taken
  | wait result => exact stepped_wait taken
  | raise target signo sender =>
      simp only [step, stepRaise] at taken
      split at taken
      case isFalse => cases taken
      case isTrue =>
        split at taken
        case isTrue master =>
          subst master
          cases taken
          exact .raised
        case isFalse other =>
          split at taken
          case isTrue listed =>
            cases taken
            exact .raisedWorker other listed
          case isFalse => cases taken
  | worker pid act =>
      obtain ⟨listed, stepped⟩ := worker_stepped taken
      cases stepped with
      | own proc calls plain speaks change =>
          exact .worker proc calls listed plain speaks change
      | ends status why => exact .workerEnds status listed why
      | tells proc change => exact .workerTells proc listed change

end Inversion

end NgxServer.ProcessSteps
