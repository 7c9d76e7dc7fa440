import NgxServer.Lib.Halting
import NgxServer.Lib.Reaper
import NgxServer.ProcessSteps

/-!
# Every ended worker is reported once

`SIGCHLD` says only that some child has ended, and of several such signals one is
pending. The master's handler therefore asks until `waitpid` has no more, and the signal
is blocked while it does. What ends after the last question is announced again.
-/

namespace NgxServer.Reaping

open NgxServer.Comm NgxServer.Log NgxServer.Signals NgxServer.ProcessSteps TransitionSystem

set_option autoImplicit false

def Told (pending : List (Nat × Pid)) : Prop := sigchld ∈ pending.map Prod.fst

def Asks (frames : List Frame) : Prop := sigchld ∈ frames.map Frame.signo

section Pending

variable {Pc : Type} (proc : Proc Pc) (signo : Nat) (sender : Pid)

theorem raise_told : Told (proc.raise signo sender).pending ↔
    signo = sigchld ∨ Told proc.pending := by
  unfold Proc.raise
  split
  case isTrue there =>
    constructor
    · exact Or.inr
    · intro either
      rcases either with rfl | told
      · obtain ⟨entry, listed, same⟩ := List.any_eq_true.mp there
        exact List.mem_map.mpr ⟨entry, listed, of_decide_eq_true same⟩
      · exact told
  case isFalse =>
    simp only [Told, List.map_append, List.map_singleton, List.mem_append, List.mem_singleton]
    rw [or_comm, eq_comm]

theorem raise_frames : (proc.raise signo sender).frames = proc.frames := by
  obtain ⟨pending, same⟩ := raise_rest proc signo sender
  rw [same]

theorem raise_pc : (proc.raise signo sender).pc = proc.pc := by
  obtain ⟨pending, same⟩ := raise_rest proc signo sender
  rw [same]

theorem drop_told (other : signo ≠ sigchld) :
    Told (proc.drop signo).pending ↔ Told proc.pending := by
  simp only [Told, Proc.drop, List.mem_map, List.mem_filter]
  constructor
  · intro listed
    obtain ⟨entry, ⟨there, -⟩, same⟩ := listed
    exact ⟨entry, there, same⟩
  · intro listed
    obtain ⟨entry, there, same⟩ := listed
    refine ⟨entry, ⟨there, ?_⟩, same⟩
    rw [same]
    exact decide_eq_true other.symm

theorem drop_untold : ¬ Told (proc.drop sigchld).pending := by
  simp only [Told, Proc.drop, List.mem_map, List.mem_filter]
  intro listed
  obtain ⟨entry, ⟨-, other⟩, same⟩ := listed
  exact of_decide_eq_true other same

theorem sender_pending {pending : List (Nat × Pid)} {signo : Nat} {sender : Pid}
    (found : senderOf pending signo = some sender) : signo ∈ pending.map Prod.fst := by
  obtain ⟨entry, look, -⟩ := Option.map_eq_some_iff.mp found
  have same := List.find?_some look
  exact List.mem_map.mpr ⟨entry, List.mem_of_find?_eq_some look, of_decide_eq_true same⟩

end Pending

def reaper (s : Processes) : Reaper.State (Pid × Nat) where
  ended := s.ended
  zombies := s.zombies
  reported := s.reaped
  announced := Told s.master.pending
  asking := Asks s.master.frames

structure Framed (setting : Setting) (s : Processes) : Prop where
  distinct : (s.master.frames.map Frame.signo).Nodup
  known : ∀ frame ∈ s.master.frames, disposition setting frame.signo = .handler
  waits : ∀ frame ∈ s.master.frames, ∀ one, frame.stage = .waiting one → frame.signo = sigchld

def Lives (s : Processes) : Prop := ∀ signo, s.master.pc ≠ .ended signo

section Steps

variable {setting : Setting} {s after : Processes} {act : Act}

theorem reaper_eq {state : Reaper.State (Pid × Nat)} (ended : s.ended = state.ended)
    (zombies : s.zombies = state.zombies) (reaped : s.reaped = state.reported)
    (told : Told s.master.pending ↔ state.announced) (asks : Asks s.master.frames ↔ state.asking) :
    reaper s = state := by
  obtain ⟨_, _, _, _, _⟩ := state
  simp only at ended zombies reaped told asks
  rw [reaper, ended, zombies, reaped, propext told, propext asks]

theorem framed_empty {master : Proc MasterPc} (idle : master.frames = []) :
    Framed setting (s.setMaster master) := by
  constructor
  case distinct =>
    rw [Processes.setMaster, idle]
    exact List.nodup_nil
  case known =>
    intro frame listed
    rw [Processes.setMaster, idle] at listed
    cases listed
  case waits =>
    intro frame listed
    rw [Processes.setMaster, idle] at listed
    cases listed

theorem framed_same (framed : Framed setting s) (same : after.master.frames = s.master.frames) :
    Framed setting after := by
  obtain ⟨distinct, known, waits⟩ := framed
  constructor
  case distinct => rwa [same]
  case known => rwa [same]
  case waits => rwa [same]

theorem framed_tail (framed : Framed setting s)
    (shorter : after.master.frames = s.master.frames.tail) : Framed setting after := by
  obtain ⟨distinct, known, waits⟩ := framed
  constructor
  case distinct =>
    rw [shorter, List.map_tail]
    exact distinct.sublist (List.tail_sublist _)
  case known =>
    intro frame listed
    rw [shorter] at listed
    exact known frame (List.mem_of_mem_tail listed)
  case waits =>
    intro frame listed
    rw [shorter] at listed
    exact waits frame (List.mem_of_mem_tail listed)

theorem framed_top (framed : Framed setting s) {signo : Nat} {before stage : Stage}
    {rest : List Frame} (here : s.master.frames = ⟨signo, before⟩ :: rest)
    (there : after.master.frames = ⟨signo, stage⟩ :: rest)
    (asks : ∀ one, stage = .waiting one → signo = sigchld) : Framed setting after := by
  obtain ⟨distinct, known, waits⟩ := framed
  rw [here] at distinct known waits
  constructor
  case distinct => rwa [there]
  case known =>
    intro frame listed
    rw [there] at listed
    rcases List.mem_cons.mp listed with rfl | below
    · exact known ⟨signo, before⟩ List.mem_cons_self
    · exact known frame (List.mem_cons_of_mem _ below)
  case waits =>
    intro frame listed
    rw [there] at listed
    rcases List.mem_cons.mp listed with rfl | below
    · exact asks
    · exact waits frame (List.mem_cons_of_mem _ below)

theorem handled_apart {signo : Nat} {mask : List Nat} {frames : List Frame}
    (handles : disposition setting signo = .handler) (free : ¬ Blocked mask frames signo) :
    signo ∉ frames.map Frame.signo := by
  intro running
  obtain ⟨frame, listed, same⟩ := List.mem_map.mp running
  have known := (handler_iff setting signo).mp handles
  apply free
  refine ⟨?_, ?_, Or.inr ⟨frame, listed, same⟩⟩
  · rintro rfl
    exact absurd known (by decide)
  · rintro rfl
    exact absurd known (by decide)

theorem framed_step (framed : Framed setting s) (stepped : Stepped setting s act after) :
    Framed setting after := by
  cases stepped with
  | block mask calls here idle => exact framed_same framed rfl
  | title => exact framed_same framed rfl
  | forkFailed => exact framed_same framed rfl
  | forked => exact framed_same framed rfl
  | enter => exact framed_same framed rfl
  | suspend => exact framed_same framed rfl
  | awake => exact framed_same framed rfl
  | @entered signo sender found free handles =>
      constructor
      case distinct => exact List.nodup_cons.mpr ⟨handled_apart handles free, framed.distinct⟩
      case known =>
        intro frame listed
        rcases List.mem_cons.mp listed with rfl | below
        · exact handles
        · exact framed.known frame below
      case waits =>
        intro frame listed one waiting
        rcases List.mem_cons.mp listed with rfl | below
        · cases waiting
        · exact framed.waits frame below one waiting
  | dropped => exact framed_same framed rfl
  | killed => exact framed_empty rfl
  | handled => exact framed_tail framed rfl
  | asked sender rest globals call here =>
      exact framed_top framed here rfl fun _ _ => rfl
  | again => exact framed
  | reaped signo one rest pid status here =>
      apply framed_top framed here rfl
      intro again waiting
      apply framed.waits ⟨signo, .waiting one⟩ ?_ one rfl
      rw [here]
      exact List.mem_cons_self
  | left => exact framed_tail framed rfl
  | raised => exact framed_same framed (raise_frames _ _ _)
  | raisedWorker => exact framed_same framed rfl
  | worker => exact framed_same framed rfl
  | workerEnds => exact framed_same framed (raise_frames _ _ _)
  | workerTells => exact framed_same framed (raise_frames _ _ _)

theorem asks_tail {frame : Frame} {rest : List Frame} (here : s.master.frames = frame :: rest)
    (other : frame.signo ≠ sigchld) : Asks s.master.frames.tail ↔ Asks s.master.frames := by
  rw [here, Asks, Asks, List.tail_cons, List.map_cons, List.mem_cons]
  exact ⟨Or.inr, fun either => either.resolve_left other.symm⟩

theorem asks_top {signo : Nat} {before stage : Stage} {rest : List Frame}
    (here : s.master.frames = ⟨signo, before⟩ :: rest) :
    Asks (⟨signo, stage⟩ :: rest) ↔ Asks s.master.frames := by
  rw [here]
  rfl

theorem raise_moves (signo : Nat) (sender : Pid) :
    Relation.ReflTransGen Reaper.Move (reaper s)
      (reaper (s.setMaster (s.master.raise signo sender))) := by
  have told := raise_told s.master signo sender
  have frames := raise_frames s.master signo sender
  by_cases child : signo = sigchld
  · have same : reaper (s.setMaster (s.master.raise signo sender)) =
        { reaper s with announced := True } := by
      apply reaper_eq rfl rfl rfl
      · exact told.trans (iff_true_intro (Or.inl child))
      · rw [Processes.setMaster, frames]
        rfl
    rw [same]
    exact Relation.ReflTransGen.single .announce
  · have same : reaper (s.setMaster (s.master.raise signo sender)) = reaper s := by
      apply reaper_eq rfl rfl rfl
      · exact told.trans (or_iff_right child)
      · rw [Processes.setMaster, frames]
        rfl
    rw [same]

/-- A step is a move of the one who waits, unless a signal ends the master. -/
theorem reaper_step (framed : Framed setting s) (stepped : Stepped setting s act after)
    (lives : Lives after) :
    Relation.ReflTransGen Reaper.Move (reaper s) (reaper after) := by
  cases stepped with
  | block mask calls here idle => exact Relation.ReflTransGen.refl
  | title => exact Relation.ReflTransGen.refl
  | forkFailed => exact Relation.ReflTransGen.refl
  | forked => exact Relation.ReflTransGen.refl
  | enter => exact Relation.ReflTransGen.refl
  | suspend => exact Relation.ReflTransGen.refl
  | awake => exact Relation.ReflTransGen.refl
  | @entered signo sender found free handles =>
      by_cases child : signo = sigchld
      · subst child
        have same : reaper (s.setMaster (s.master.enter sigchld sender)) =
            { reaper s with announced := False, asking := True } := by
          apply reaper_eq rfl rfl rfl
          · exact iff_false_intro (drop_untold s.master)
          · exact iff_true_intro List.mem_cons_self
        rw [same]
        exact Relation.ReflTransGen.single (.answer (sender_pending found))
      · have same : reaper (s.setMaster (s.master.enter signo sender)) = reaper s := by
          apply reaper_eq rfl rfl rfl
          · exact drop_told s.master signo child
          · exact (asks_tail rfl child).symm
        rw [same]
  | @dropped signo sender found free unhandled =>
      have other : signo ≠ sigchld := by
        rintro rfl
        exact unhandled ((handler_iff setting sigchld).mpr (by decide))
      have same : reaper (s.setMaster (s.master.drop signo)) = reaper s :=
        reaper_eq rfl rfl rfl (drop_told s.master signo other) Iff.rfl
      rw [same]
  | @killed signo => exact absurd rfl (lives signo)
  | handled signo sender rest globals call here runs other =>
      have same : reaper ((s.masterNote [call]).setMaster
          { s.master with globals := globals }.leave) = reaper s :=
        reaper_eq rfl rfl rfl Iff.rfl (asks_tail here other)
      rw [same]
  | asked sender rest globals call here runs =>
      have same : reaper ((s.masterNote [call]).setMaster
          { s.master with globals := globals, frames := ⟨sigchld, .waiting false⟩ :: rest }) =
            reaper s :=
        reaper_eq rfl rfl rfl Iff.rfl (asks_top here)
      rw [same]
  | again => exact Relation.ReflTransGen.refl
  | reaped signo one rest pid status here there =>
      have child : signo = sigchld := by
        apply framed.waits ⟨signo, .waiting one⟩ ?_ one rfl
        rw [here]
        exact List.mem_cons_self
      have asks : (reaper s).asking := by
        change Asks s.master.frames
        rw [here, child]
        exact List.mem_cons_self
      have same : reaper (((take s (.ended pid status)).masterNote
          [endedCall pid status]).setMaster
            { s.master with frames := ⟨signo, .waiting true⟩ :: rest }) =
              { reaper s with
                zombies := s.zombies.erase (pid, status)
                reported := s.reaped ++ [(pid, status)] } :=
        reaper_eq rfl rfl rfl Iff.rfl (asks_top here)
      rw [same]
      exact Relation.ReflTransGen.single (.report (pid, status) asks there)
  | left signo one rest calls here none plain =>
      have child : signo = sigchld := by
        apply framed.waits ⟨signo, .waiting one⟩ ?_ one rfl
        rw [here]
        exact List.mem_cons_self
      have asks : (reaper s).asking := by
        change Asks s.master.frames
        rw [here, child]
        exact List.mem_cons_self
      have done : ¬ Asks s.master.frames.tail := by
        have distinct := framed.distinct
        rw [here, List.map_cons, child] at distinct
        rw [here]
        exact (List.nodup_cons.mp distinct).1
      have same : reaper ((s.masterNote calls).setMaster s.master.leave) =
          { reaper s with asking := False } :=
        reaper_eq rfl rfl rfl Iff.rfl (iff_false_intro done)
      rw [same]
      exact Relation.ReflTransGen.single (.leave asks none)
  | raised => exact raise_moves _ _
  | raisedWorker => exact Relation.ReflTransGen.refl
  | worker => exact Relation.ReflTransGen.refl
  | @workerEnds pid workerAct status listed =>
      have same : reaper (s.endWorker pid status) =
          { reaper s with
            ended := s.ended ++ [(pid, status)]
            zombies := s.zombies ++ [(pid, status)]
            announced := True } := by
        apply reaper_eq rfl rfl rfl
        · exact (raise_told s.master sigchld pid).trans (iff_true_intro (Or.inl rfl))
        · rw [Processes.endWorker, raise_frames]
          rfl
      rw [same]
      exact Relation.ReflTransGen.single (.ends (pid, status))
  | @workerTells pid workerAct proc listed =>
      exact raise_moves sigchld pid

theorem lives_before (stepped : Stepped setting s act after) (lives : Lives after) : Lives s := by
  intro signo dead
  cases stepped with
  | block mask calls here => cases here.symm.trans dead
  | title here => cases here.symm.trans dead
  | forkFailed i calls here => cases here.symm.trans dead
  | forked i pid here => cases here.symm.trans dead
  | enter i here => cases here.symm.trans dead
  | suspend here => cases here.symm.trans dead
  | awake here => cases here.symm.trans dead
  | entered => exact lives signo dead
  | dropped => exact lives signo dead
  | @killed ended => exact lives ended rfl
  | handled =>
      apply lives signo
      simp [Processes.setMaster, Proc.leave, dead]
  | asked => exact lives signo dead
  | again => exact lives signo dead
  | reaped => exact lives signo dead
  | left =>
      apply lives signo
      simp [Processes.setMaster, Proc.leave, dead]
  | raised => exact lives signo ((raise_pc _ _ _).trans dead)
  | raisedWorker => exact lives signo dead
  | worker => exact lives signo dead
  | workerEnds => exact lives signo ((raise_pc _ _ _).trans dead)
  | workerTells => exact lives signo ((raise_pc _ _ _).trans dead)

end Steps

/-- The lines that say how a child has ended, each with the process that wrote it. -/
def reports (s : Processes) : List (Pid × LogCall) :=
  (s.log.filter fun line => decide (line.call.fmt ∈ endFormats)).map
    fun line => (line.writer, line.call)

def reportOf (s : Processes) (entry : Pid × Nat) : Pid × LogCall :=
  (s.masterPid, endedCall entry.1 entry.2)

/-- The line of an ended worker is not above `LogLevel`. -/
def Admitted (setting : Setting) (entry : Pid × Nat) : Prop :=
  ((endedCall entry.1 entry.2).level : Int) ≤ setting.logLevel

instance (setting : Setting) (entry : Pid × Nat) : Decidable (Admitted setting entry) :=
  inferInstanceAs (Decidable (_ ≤ _))

theorem ended_call_format (pid : Pid) (status : Nat) :
    (endedCall pid status).fmt ∈ endFormats := by
  unfold endedCall
  split_ifs
  · exact List.mem_cons_self
  · exact List.mem_cons_of_mem _ List.mem_cons_self

section Reports

variable {setting : Setting} {s after : Processes} {act : Act}

theorem reports_note (writer : Pid) (globals : Globals) {calls : List LogCall}
    (plain : Plain calls) : reports (s.note writer globals calls) = reports s := by
  have none : ∀ calls : List LogCall, Plain calls →
      (calls.map fun call => LogLine.mk writer globals.ngxPid call).filter
        (fun line => decide (line.call.fmt ∈ endFormats)) = [] := by
    intro calls plain
    apply List.filter_eq_nil_iff.mpr
    intro line listed
    obtain ⟨call, member, rfl⟩ := List.mem_map.mp listed
    simpa using plain call member
  dsimp only [reports, Processes.note]
  rw [List.filter_append, none _ fun call listed => plain call (List.mem_of_mem_filter listed),
    List.append_nil]

theorem reports_ended (level : s.master.globals.logLevel = setting.logLevel) (pid : Pid)
    (status : Nat) :
    reports (s.masterNote [endedCall pid status]) =
      reports s ++
        ([(pid, status)].filter fun entry => Admitted setting entry).map (reportOf s) := by
  have known := ended_call_format pid status
  by_cases admitted : Admitted setting (pid, status)
  · have written : ((endedCall pid status).level : Int) ≤ setting.logLevel := admitted
    simp [reports, Processes.masterNote, Processes.note, List.filter_append, known, reportOf, level,
      admitted, written]
  · have left : ¬((endedCall pid status).level : Int) ≤ setting.logLevel := admitted
    simp [reports, Processes.masterNote, Processes.note, level, admitted, left]

structure Reported (setting : Setting) (s : Processes) : Prop where
  level : s.master.globals.logLevel = setting.logLevel
  lines : reports s =
    (s.reaped.filter fun entry => Admitted setting entry).map (reportOf s)

theorem reported_note (reported : Reported setting s) (writer : Pid) (globals : Globals)
    {calls : List LogCall} (plain : Plain calls) :
    Reported setting (s.note writer globals calls) :=
  ⟨reported.level, (reports_note writer globals plain).trans reported.lines⟩

theorem reported_set (reported : Reported setting s) {master : Proc MasterPc}
    (level : master.globals.logLevel = s.master.globals.logLevel) :
    Reported setting (s.setMaster master) :=
  ⟨level.trans reported.level, reported.lines⟩

theorem handler_level {globals next : Globals} {signo : Nat} {sender : Pid} {call : LogCall}
    (runs : ngxSignalHandler globals signo sender = some (next, call)) :
    next.logLevel = globals.logLevel := by
  have same := handler_globals runs
  rw [← same]

theorem raise_level {Pc : Type} (proc : Proc Pc) (signo : Nat) (sender : Pid) :
    (proc.raise signo sender).globals.logLevel = proc.globals.logLevel := by
  obtain ⟨pending, rest⟩ := raise_rest proc signo sender
  rw [rest]

theorem reported_step (reported : Reported setting s) (stepped : Stepped setting s act after) :
    Reported setting after := by
  cases stepped with
  | block mask calls here idle blocks plain =>
      exact reported_set (reported_note reported _ _ plain) rfl
  | title here idle plain => exact reported_set (reported_note reported _ _ plain) rfl
  | forkFailed i calls here idle more plain =>
      exact reported_set (reported_note reported _ _ plain) rfl
  | forked => exact ⟨reported.level, reported.lines⟩
  | enter => exact reported_set reported rfl
  | suspend => exact reported_set reported rfl
  | awake => exact reported_set reported rfl
  | entered => exact reported_set reported rfl
  | dropped => exact reported_set reported rfl
  | killed => exact reported_set reported rfl
  | handled signo sender rest globals call here runs =>
      exact reported_set (reported_note reported _ _ (handler_plain runs)) (handler_level runs)
  | asked sender rest globals call here runs =>
      exact reported_set (reported_note reported _ _ (handler_plain runs)) (handler_level runs)
  | again => exact reported
  | reaped signo one rest pid status =>
      have longer := reports_ended (s := take s (.ended pid status)) reported.level pid status
      have before : reports (take s (.ended pid status)) =
          (s.reaped.filter fun entry => Admitted setting entry).map (reportOf s) := reported.lines
      rw [before] at longer
      have joined : ((s.reaped ++ [(pid, status)]).filter fun entry =>
          Admitted setting entry).map (reportOf s) =
            (s.reaped.filter fun entry => Admitted setting entry).map (reportOf s) ++
              ([(pid, status)].filter fun entry => Admitted setting entry).map (reportOf s) := by
        rw [List.filter_append, List.map_append]
      exact ⟨reported.level, longer.trans joined.symm⟩
  | left signo one rest calls here none plain =>
      exact reported_set (reported_note reported _ _ plain) rfl
  | raised => exact reported_set reported (raise_level _ _ _)
  | raisedWorker => exact ⟨reported.level, reported.lines⟩
  | @worker pid workerAct proc calls listed plain =>
      have noted := reported_note reported pid (s.worker pid).globals plain
      exact ⟨noted.level, noted.lines⟩
  | workerEnds => exact ⟨(raise_level _ _ _).trans reported.level, reported.lines⟩
  | workerTells => exact ⟨(raise_level _ _ _).trans reported.level, reported.lines⟩

theorem reported_all (reported : Reported setting s) (level : 6 ≤ setting.logLevel) :
    reports s = s.reaped.map (reportOf s) := by
  rw [reported.lines, List.filter_eq_self.mpr]
  intro entry _
  have least : (endedCall entry.1 entry.2).level ≤ 6 := by
    have alert : ngxLogAlert ≤ 6 := by decide
    have notice : ngxLogNotice ≤ 6 := by decide
    unfold endedCall
    split_ifs
    · exact alert
    · exact notice
  have admitted : Admitted setting entry := by
    unfold Admitted
    omega
  exact decide_eq_true admitted

def rounds (setting : Setting) : MasterPc → Nat
  | .entry | .masked => 0
  | .spawning i => i
  | _ => setting.workerProcesses.toNat

/-- Every worker that was started is alive or has ended, and there are no more than
`WorkerProcesses`. -/
structure Populated (setting : Setting) (s : Processes) : Prop where
  workers : s.started.Perm (s.alive ++ s.ended.map Prod.fst)
  bounded : s.started.length ≤ rounds setting s.master.pc
  most : rounds setting s.master.pc ≤ setting.workerProcesses.toNat

theorem populated_same (populated : Populated setting s)
    (workers : after.started = s.started ∧ after.alive = s.alive ∧ after.ended = s.ended)
    (least : rounds setting s.master.pc ≤ rounds setting after.master.pc)
    (most : rounds setting after.master.pc ≤ setting.workerProcesses.toNat) :
    Populated setting after := by
  obtain ⟨started, alive, ended⟩ := workers
  constructor
  case workers =>
    rw [started, alive, ended]
    exact populated.workers
  case bounded =>
    rw [started]
    exact populated.bounded.trans least
  case most => exact most

theorem leave_rounds (master : Proc MasterPc) :
    rounds setting master.leave.pc = rounds setting master.pc := by
  unfold Proc.leave
  dsimp only
  split_ifs with woken
  · rw [woken.2]
    rfl
  · rfl

theorem populated_step (populated : Populated setting s) (stepped : Stepped setting s act after) :
    Populated setting after := by
  have most := populated.most
  have same : ∀ pc : MasterPc, rounds setting pc = rounds setting s.master.pc →
      rounds setting s.master.pc ≤ rounds setting pc ∧
        rounds setting pc ≤ setting.workerProcesses.toNat :=
    fun _ equal => ⟨equal.ge, equal.trans_le most⟩
  cases stepped with
  | block mask calls here =>
      obtain ⟨least, most⟩ := same .masked (by rw [here]; rfl)
      exact populated_same populated ⟨rfl, rfl, rfl⟩ least most
  | title here =>
      obtain ⟨least, most⟩ := same (.spawning 0) (by rw [here]; rfl)
      exact populated_same populated ⟨rfl, rfl, rfl⟩ least most
  | forkFailed i calls here idle more =>
      have least : rounds setting s.master.pc ≤ i + 1 := by
        rw [here]
        exact Nat.le_succ i
      have below : i + 1 ≤ setting.workerProcesses.toNat := by omega
      exact populated_same populated ⟨rfl, rfl, rfl⟩ least below
  | forked i pid here idle more =>
      constructor
      case workers =>
        have front := populated.workers.append_right [pid]
        apply front.trans
        rw [List.append_assoc, List.append_assoc]
        exact List.perm_append_comm.append_left _
      case bounded =>
        have before := populated.bounded
        rw [here] at before
        rw [List.length_append]
        exact Nat.succ_le_succ before
      case most =>
        change i + 1 ≤ setting.workerProcesses.toNat
        omega
  | enter i here =>
      exact populated_same populated ⟨rfl, rfl, rfl⟩ most (Nat.le_refl _)
  | suspend here =>
      obtain ⟨least, most⟩ := same .suspended (by rw [here]; rfl)
      exact populated_same populated ⟨rfl, rfl, rfl⟩ least most
  | awake here =>
      obtain ⟨least, most⟩ := same .top (by rw [here]; rfl)
      exact populated_same populated ⟨rfl, rfl, rfl⟩ least most
  | entered => exact populated_same populated ⟨rfl, rfl, rfl⟩ (Nat.le_refl _) most
  | dropped => exact populated_same populated ⟨rfl, rfl, rfl⟩ (Nat.le_refl _) most
  | killed => exact populated_same populated ⟨rfl, rfl, rfl⟩ most (Nat.le_refl _)
  | handled signo sender rest globals =>
      obtain ⟨least, most⟩ := same _ (leave_rounds { s.master with globals := globals })
      exact populated_same populated ⟨rfl, rfl, rfl⟩ least most
  | asked => exact populated_same populated ⟨rfl, rfl, rfl⟩ (Nat.le_refl _) most
  | again => exact populated
  | reaped => exact populated_same populated ⟨rfl, rfl, rfl⟩ (Nat.le_refl _) most
  | left =>
      obtain ⟨least, most⟩ := same _ (leave_rounds s.master)
      exact populated_same populated ⟨rfl, rfl, rfl⟩ least most
  | raised =>
      obtain ⟨least, most⟩ := same _ (congrArg (rounds setting) (raise_pc s.master _ _))
      exact populated_same populated ⟨rfl, rfl, rfl⟩ least most
  | raisedWorker => exact populated_same populated ⟨rfl, rfl, rfl⟩ (Nat.le_refl _) most
  | worker => exact populated_same populated ⟨rfl, rfl, rfl⟩ (Nat.le_refl _) most
  | @workerEnds pid workerAct status listed =>
      have pc := raise_pc s.master sigchld pid
      constructor
      case workers =>
        have front := (List.perm_cons_erase listed).append_right (s.ended.map Prod.fst)
        have back : (pid :: s.alive.erase pid ++ s.ended.map Prod.fst).Perm
            (s.alive.erase pid ++ (s.ended.map Prod.fst ++ [pid])) := by
          rw [← List.append_assoc]
          exact (List.perm_append_singleton pid _).symm
        have all := populated.workers.trans (front.trans back)
        simpa [Processes.endWorker] using all
      case bounded =>
        rw [Processes.endWorker, pc]
        exact populated.bounded
      case most =>
        rw [Processes.endWorker, pc]
        exact most
  | @workerTells pid =>
      obtain ⟨least, most⟩ := same _ (congrArg (rounds setting) (raise_pc s.master sigchld pid))
      exact populated_same populated ⟨rfl, rfl, rfl⟩ least most

end Reports

def anyOrder (_ : Processes) (_ : Act) : Prop := True

instance (s : Processes) (act : Act) : Decidable (anyOrder s act) :=
  inferInstanceAs (Decidable True)

structure Accounted (setting : Setting) (s : Processes) : Prop where
  framed : Framed setting s
  sound : Lives s → Reaper.Sound (reaper s)
  reported : Reported setting s
  populated : Populated setting s

section Runs

variable {setting : Setting} {s after : Processes} {act : Act}

theorem fresh_accounted (fresh : Fresh setting s) : Accounted setting s := by
  obtain ⟨pid, parent, reap, mask, pending, rfl⟩ := fresh
  constructor
  case framed =>
    constructor
    case distinct => exact List.nodup_nil
    case known =>
      intro frame listed
      cases listed
    case waits =>
      intro frame listed
      cases listed
  case sound =>
    intro lives
    exact ⟨List.Perm.refl [], fun some => absurd rfl some⟩
  case reported => exact ⟨rfl, rfl⟩
  case populated => exact ⟨List.Perm.refl [], Nat.le_refl 0, Nat.zero_le _⟩

theorem accounted_step (accounted : Accounted setting s) (taken : step setting s act = some after) :
    Accounted setting after := by
  have stepped := stepped_of_step taken
  constructor
  case framed => exact framed_step accounted.framed stepped
  case sound =>
    intro lives
    have sound := accounted.sound (lives_before stepped lives)
    exact Reaper.sound_moves sound (reaper_step accounted.framed stepped lives)
  case reported => exact reported_step accounted.reported stepped
  case populated => exact populated_step accounted.populated stepped

theorem reachable_accounted {allowed : Processes → Act → Prop}
    (reached : Reachable setting allowed s) : Accounted setting s := by
  apply invariant_of_step (Accounted setting) ?_ ?_ reached
  · intro start fresh
    exact fresh_accounted fresh
  · intro before act after accounted _ taken
    exact accounted_step accounted taken

end Runs

/-- The master waits in `sigsuspend` and no signal is on its way to it. -/
structure Resting (master : Proc MasterPc) : Prop where
  here : master.pc = .suspended
  idle : master.frames = []
  quiet : master.pending = []

theorem resting_reported {setting : Setting} {s : Processes} (accounted : Accounted setting s)
    (resting : Resting s.master) : s.zombies = [] ∧ s.ended.Perm s.reaped := by
  obtain ⟨here, idle, quiet⟩ := resting
  have lives : Lives s := by
    intro signo dead
    cases here.symm.trans dead
  apply Reaper.all_reported (accounted.sound lives)
  · intro told
    change Told s.master.pending at told
    rw [quiet] at told
    cases told
  · intro asks
    change Asks s.master.frames at asks
    rw [idle] at asks
    cases asks

/-- In every order of forks, signals and ends, as long as no signal has ended the master:
a worker that was started is alive, a zombie, or one that the master has waited for. The
master knows of a zombie, and when it rests there is none. Each end that it has waited for
is in the log once and as it was, as far as `LogLevel` admits its line, so from 6 on in any
case. -/
theorem ended_workers_logged (setting : Setting) {s : Processes}
    (reached : Reachable setting anyOrder s) (lives : Lives s) :
    s.started.Perm (s.alive ++ (s.reaped ++ s.zombies).map Prod.fst) ∧
      s.started.length ≤ setting.workerProcesses.toNat ∧
      s.ended.Perm (s.reaped ++ s.zombies) ∧
      reports s = (s.reaped.filter fun entry => Admitted setting entry).map (reportOf s) ∧
      (6 ≤ setting.logLevel → reports s = s.reaped.map (reportOf s)) ∧
      (s.zombies ≠ [] → Told s.master.pending ∨ Asks s.master.frames) ∧
      (Resting s.master → s.zombies = [] ∧ s.ended.Perm s.reaped) := by
  have accounted := reachable_accounted reached
  obtain ⟨ends, told⟩ := accounted.sound lives
  obtain ⟨workers, bounded, most⟩ := accounted.populated
  constructor
  · exact workers.trans ((ends.map Prod.fst).append_left _)
  constructor
  · exact bounded.trans most
  · exact ⟨ends, accounted.reported.lines, reported_all accounted.reported, told,
      resting_reported accounted⟩

def initFailedRun : List Act :=
  [.block true 0, .title, .fork (some 7) 0, .enter, .suspend, .worker 7 .rename,
    .worker 7 .retype, .worker 7 (.unmask true 0), .worker 7 (.create false),
    .deliver sigchld, .handle, .wait (.ended 7 65024), .wait (.failed echild)]

theorem ended_workers_logged_sample :
    ∃ s, Reachable sampleSetting anyOrder s ∧ s.ended = [(7, 65024)] ∧ s.zombies = [] ∧
      reports s = s.reaped.map (reportOf s) := by
  have seen : (run anyOrder initFailedRun).map
      (fun s => (s.ended, s.zombies, s.master.pc)) =
        some ([(7, 65024)], [], .sleeping) := by
    decide
  obtain ⟨s, reached, same⟩ := reachable_of_seen seen
  simp only [Prod.mk.injEq] at same
  obtain ⟨ended, none, awake⟩ := same
  have lives : Lives s := by
    intro signo dead
    cases awake.symm.trans dead
  obtain ⟨-, -, -, -, logged, -⟩ := ended_workers_logged sampleSetting reached lives
  exact ⟨s, reached, ended, none, logged (by decide)⟩

/-- The master's own steps, in which `waitpid` is not interrupted. -/
def OfMaster : Act → Prop
  | .raise _ _ _ | .worker _ _ => False
  | .wait result => result ≠ .failed eintr
  | _ => True

def Works (setting : Setting) (s after : Processes) : Prop :=
  ∃ act, OfMaster act ∧ step setting s act = some after

/-- No signal on its way to the master would end it. -/
def Spared (setting : Setting) (s : Processes) : Prop :=
  ∀ signo ∈ s.master.pending.map Prod.fst,
    disposition setting signo = .dfl → defaultAction signo ≠ .terminate

def frameWeight (frame : Frame) : Nat :=
  match frame.stage with
  | .entered _ => 4
  | .waiting _ => 3

def pcWeight (setting : Setting) : MasterPc → Nat
  | .entry => setting.workerProcesses.toNat + 5
  | .masked => setting.workerProcesses.toNat + 4
  | .spawning i => setting.workerProcesses.toNat - i + 3
  | .top => 1
  | .sleeping => 2
  | .suspended | .ended _ => 0

/-- How far the master is from its rest: what is pending is to be handled, a handler
has to return, and a zombie takes one more question. -/
def rank (setting : Setting) (s : Processes) : Nat :=
  5 * s.master.pending.length + (s.master.frames.map frameWeight).sum + s.zombies.length +
    pcWeight setting s.master.pc

section Rest

variable {setting : Setting} {s after : Processes} {act : Act}

theorem drop_length {Pc : Type} {proc : Proc Pc} {signo : Nat} {sender : Pid}
    (found : senderOf proc.pending signo = some sender) :
    (proc.drop signo).pending.length < proc.pending.length := by
  obtain ⟨entry, listed, same⟩ := List.mem_map.mp (sender_pending found)
  apply List.length_filter_lt_length_iff_exists.mpr
  exact ⟨entry, listed, by simpa using same⟩

theorem leave_weight (setting : Setting) {master : Proc MasterPc} {frame : Frame}
    {rest : List Frame}
    (here : master.frames = frame :: rest) :
    (master.leave.frames.map frameWeight).sum + pcWeight setting master.leave.pc <
      (master.frames.map frameWeight).sum + pcWeight setting master.pc := by
  have heavy : 3 ≤ frameWeight frame := by
    unfold frameWeight
    split <;> omega
  have frames : master.leave.frames = rest := by
    rw [Proc.leave, here]
    rfl
  have woken : pcWeight setting master.leave.pc ≤ pcWeight setting master.pc + 2 := by
    unfold Proc.leave
    dsimp only
    split_ifs
    · exact Nat.le_add_left _ _
    · exact Nat.le_add_right _ _
  rw [frames, here, List.map_cons, List.sum_cons]
  omega

theorem works_less (works : Works setting s after) : rank setting after < rank setting s := by
  obtain ⟨act, own, taken⟩ := works
  cases stepped_of_step taken with
  | block mask calls here =>
      simp only [rank, Processes.setMaster, Processes.masterNote, Processes.note, here, pcWeight]
      omega
  | title here =>
      simp only [rank, Processes.setMaster, Processes.masterNote, Processes.note, here, pcWeight]
      omega
  | forkFailed i calls here idle more =>
      simp only [rank, Processes.setMaster, Processes.masterNote, Processes.note, here, pcWeight]
      omega
  | forked i pid here idle more =>
      simp only [rank, here, pcWeight]
      omega
  | enter i here =>
      simp only [rank, Processes.setMaster, here, pcWeight]
      omega
  | suspend here =>
      simp only [rank, Processes.setMaster, here, pcWeight]
      omega
  | awake here =>
      simp only [rank, Processes.setMaster, here, pcWeight]
      omega
  | @entered signo sender found =>
      have fewer := drop_length found
      simp only [rank, Processes.setMaster, Proc.enter, Proc.drop, List.map_cons, List.sum_cons,
        frameWeight] at fewer ⊢
      omega
  | @dropped signo sender found =>
      have fewer := drop_length found
      simp only [rank, Processes.setMaster, Proc.drop] at fewer ⊢
      omega
  | @killed signo sender found =>
      have fewer := drop_length found
      simp only [rank, Processes.setMaster, pcWeight, List.length_nil, List.map_nil, List.sum_nil]
      omega
  | handled signo sender rest globals call here =>
      let master : Proc MasterPc := { s.master with globals := globals }
      have frames : master.frames = ⟨signo, .entered sender⟩ :: rest := here
      have less : (master.leave.frames.map frameWeight).sum + pcWeight setting master.leave.pc <
          (s.master.frames.map frameWeight).sum + pcWeight setting s.master.pc :=
        leave_weight setting frames
      change 5 * s.master.pending.length + (master.leave.frames.map frameWeight).sum +
        s.zombies.length + pcWeight setting master.leave.pc < rank setting s
      rw [rank]
      omega
  | asked sender rest globals call here =>
      simp only [rank, Processes.setMaster, Processes.masterNote, Processes.note, here,
        List.map_cons, List.sum_cons, frameWeight]
      omega
  | again => exact absurd rfl own
  | reaped signo one rest pid status here there =>
      have fewer := List.length_erase_of_mem there
      have some := List.length_pos_of_mem there
      simp only [rank, Processes.setMaster, Processes.masterNote, Processes.note, take, here,
        List.map_cons, List.sum_cons, frameWeight]
      omega
  | left signo one rest calls here =>
      have less := leave_weight setting here
      have pending : s.master.leave.pending = s.master.pending := rfl
      simp only [rank, Processes.setMaster, Processes.masterNote, Processes.note, pending]
      omega
  | raised => exact own.elim
  | raisedWorker => exact own.elim
  | worker => exact own.elim
  | workerEnds => exact own.elim
  | workerTells => exact own.elim

theorem works_spared (spared : Spared setting s) (works : Works setting s after) :
    Spared setting after := by
  obtain ⟨act, own, taken⟩ := works
  have fewer : ∀ signo, ∀ other ∈ (s.master.drop signo).pending.map Prod.fst,
      other ∈ s.master.pending.map Prod.fst := by
    intro signo other listed
    exact (List.filter_sublist.map Prod.fst).subset listed
  cases stepped_of_step taken with
  | entered => exact fun signo listed => spared signo (fewer _ signo listed)
  | dropped => exact fun signo listed => spared signo (fewer _ signo listed)
  | killed => exact fun signo listed => nomatch listed
  | raised => exact own.elim
  | raisedWorker => exact own.elim
  | worker => exact own.elim
  | workerEnds => exact own.elim
  | workerTells => exact own.elim
  | _ => exact spared

theorem works_lives (lives : Lives s) (spared : Spared setting s)
    (works : Works setting s after) : Lives after := by
  obtain ⟨act, own, taken⟩ := works
  have left : ∀ master : Proc MasterPc, (∀ signo, master.pc ≠ .ended signo) →
      ∀ signo, master.leave.pc ≠ .ended signo := by
    intro master before signo
    unfold Proc.leave
    dsimp only
    split_ifs
    · exact nofun
    · exact before signo
  cases stepped_of_step taken with
  | block => exact fun signo => nofun
  | title => exact fun signo => nofun
  | forkFailed => exact fun signo => nofun
  | forked => exact fun signo => nofun
  | enter => exact fun signo => nofun
  | suspend => exact fun signo => nofun
  | awake => exact fun signo => nofun
  | entered => exact lives
  | dropped => exact lives
  | killed sender found default lethal =>
      exact absurd lethal (spared _ (sender_pending found) default)
  | handled => exact left _ lives
  | asked => exact lives
  | again => exact lives
  | reaped => exact lives
  | left => exact left _ lives
  | raised => exact own.elim
  | raisedWorker => exact own.elim
  | worker => exact own.elim
  | workerEnds => exact own.elim
  | workerTells => exact own.elim

theorem works_ended (works : Works setting s after) : after.ended = s.ended := by
  obtain ⟨act, own, taken⟩ := works
  cases stepped_of_step taken with
  | raised => exact own.elim
  | raisedWorker => exact own.elim
  | worker => exact own.elim
  | workerEnds => exact own.elim
  | workerTells => exact own.elim
  | _ => rfl

def answer (s : Processes) : WaitResult :=
  match s.zombies with
  | (pid, status) :: _ => .ended pid status
  | [] => if s.alive = [] then .failed echild else .running

theorem answer_answered (s : Processes) : Answered s (answer s) ∧ answer s ≠ .failed eintr := by
  unfold answer
  split
  case h_1 pid status rest zombies =>
    constructor
    · rw [Answered, zombies]
      exact List.mem_cons_self
    · exact nofun
  case h_2 none =>
    split_ifs with childless
    · exact ⟨Or.inr ⟨rfl, childless, none⟩, by decide⟩
    · exact ⟨⟨childless, none⟩, nofun⟩

theorem stuck_resting (framed : Framed setting s) (lives : Lives s)
    (stuck : ∀ next, ¬ Works setting s next) : Resting s.master := by
  have idle : s.master.frames = [] := by
    cases frames : s.master.frames with
    | nil => rfl
    | cons frame rest =>
        obtain ⟨signo, stage⟩ := frame
        exfalso
        cases stage with
        | entered sender =>
            have handles : disposition setting signo = .handler := by
              apply framed.known ⟨signo, .entered sender⟩
              rw [frames]
              exact List.mem_cons_self
            obtain ⟨name, named⟩ := signame_some ((handler_iff setting signo).mp handles)
            have runs : ∃ next, stepHandle s = some next := by
              simp only [stepHandle, frames, ngxSignalHandler, named, Option.bind_eq_bind,
                Option.bind_some]
              split_ifs <;> exact ⟨_, rfl⟩
            obtain ⟨next, taken⟩ := runs
            exact stuck next ⟨.handle, trivial, taken⟩
        | waiting one =>
            obtain ⟨answered, real⟩ := answer_answered s
            have runs : ∃ next, stepWait s (answer s) = some next := by
              simp only [stepWait, frames, if_pos answered]
              exact ⟨_, rfl⟩
            obtain ⟨next, taken⟩ := runs
            exact stuck next ⟨.wait (answer s), real, taken⟩
  have here : s.master.pc = .suspended := by
    cases pc : s.master.pc with
    | entry =>
        exact absurd ⟨.block true 0, trivial, if_pos ⟨pc, idle⟩⟩ (stuck _)
    | masked => exact absurd ⟨.title, trivial, if_pos ⟨pc, idle⟩⟩ (stuck _)
    | spawning i =>
        by_cases more : (i : Int) < setting.workerProcesses
        · have taken : ∃ next, stepFork setting s none 0 = some next := by
            simp only [stepFork, pc, if_pos (And.intro idle more)]
            exact ⟨_, rfl⟩
          obtain ⟨next, taken⟩ := taken
          exact absurd ⟨.fork none 0, trivial, taken⟩ (stuck next)
        · have taken : ∃ next, stepEnter setting s = some next := by
            simp only [stepEnter, pc, if_pos (And.intro idle more)]
            exact ⟨_, rfl⟩
          obtain ⟨next, taken⟩ := taken
          exact absurd ⟨.enter, trivial, taken⟩ (stuck next)
    | top => exact absurd ⟨.suspend, trivial, if_pos ⟨pc, idle⟩⟩ (stuck _)
    | suspended => rfl
    | sleeping => exact absurd ⟨.awake, trivial, if_pos ⟨pc, idle⟩⟩ (stuck _)
    | ended signo => exact absurd pc (lives signo)
  constructor
  case here => exact here
  case idle => exact idle
  case quiet =>
    cases pending : s.master.pending with
    | nil => rfl
    | cons entry rest =>
        exfalso
        have found : senderOf s.master.pending entry.1 = some entry.2 := by
          simp [senderOf, pending]
        have free : ¬ Blocked (masterMask s.master) s.master.frames entry.1 := by
          rw [masterMask, if_pos here, idle]
          intro blocked
          rcases blocked.2.2 with masked | ⟨frame, listed, -⟩
          · cases masked
          · cases listed
        have taken : ∃ next, stepDeliver setting s entry.1 = some next := by
          simp only [stepDeliver, found, if_neg free]
          split
          · exact ⟨_, rfl⟩
          · exact ⟨_, rfl⟩
          · split_ifs <;> exact ⟨_, rfl⟩
        obtain ⟨next, delivered⟩ := taken
        exact stuck next ⟨.deliver entry.1, trivial, delivered⟩

structure Going (setting : Setting) (s : Processes) : Prop where
  accounted : Accounted setting s
  lives : Lives s
  spared : Spared setting s

theorem works_fall (setting : Setting) :
    Halting.Falls (Works setting) (Going setting) (rank setting) := by
  constructor
  case kept =>
    intro before after going works
    constructor
    case accounted =>
      obtain ⟨act, -, taken⟩ := works
      exact accounted_step going.accounted taken
    case lives => exact works_lives going.lives going.spared works
    case spared => exact works_spared going.spared works
  case less => exact fun before after _ works => works_less works

theorem steps_ended {last : Processes}
    (steps : Relation.ReflTransGen (Works setting) s last) : last.ended = s.ended := by
  induction steps with
  | refl => rfl
  | tail _ works ih => exact (works_ended works).trans ih

end Rest

/-- When no more signals come and no more workers end, and none of the signals that are
pending would end the master, then it comes to rest, in whatever order it makes its steps,
and every worker that has ended is waited for. Their ends are in the log, as far as
`LogLevel` admits the lines, so from 6 on in any case. -/
theorem master_reaps_all (setting : Setting) {s : Processes}
    (reached : Reachable setting anyOrder s) (lives : Lives s) (spared : Spared setting s) :
    (∀ states : Nat → Processes, states 0 = s →
        ∃ count, ¬ Works setting (states count) (states (count + 1))) ∧
      (∃ last, Relation.ReflTransGen (Works setting) s last ∧
        ∀ next, ¬ Works setting last next) ∧
      ∀ last, Relation.ReflTransGen (Works setting) s last →
        (∀ next, ¬ Works setting last next) →
          Resting last.master ∧ last.zombies = [] ∧ s.ended.Perm last.reaped ∧
            reports last =
              (last.reaped.filter fun entry => Admitted setting entry).map (reportOf last) ∧
            (6 ≤ setting.logLevel → reports last = last.reaped.map (reportOf last)) := by
  have falls := works_fall setting
  have going : Going setting s := ⟨reachable_accounted reached, lives, spared⟩
  constructor
  · intro states starts
    apply falls.ends
    rw [starts]
    exact going
  constructor
  · exact falls.exists_last going
  · intro last steps stuck
    have ended := falls.steps_kept going steps
    have resting := stuck_resting ended.accounted.framed ended.lives stuck
    obtain ⟨none, all⟩ := resting_reported ended.accounted resting
    rw [steps_ended steps] at all
    have reported := ended.accounted.reported
    exact ⟨resting, none, all, reported.lines, reported_all reported⟩

/-- A worker that has just ended. -/
theorem master_reaps_all_sample :
    ∃ s last : Processes, s.zombies = [(7, 65024)] ∧
      Relation.ReflTransGen (Works sampleSetting) s last ∧ last.zombies = [] ∧
        s.ended.Perm last.reaped := by
  have seen : (run anyOrder (initFailedRun.take 9)).map
      (fun s => (s.zombies, s.master.pc, s.master.pending)) =
        some ([(7, 65024)], .suspended, [(sigchld, 7)]) := by
    decide
  obtain ⟨s, reached, same⟩ := reachable_of_seen seen
  simp only [Prod.mk.injEq] at same
  obtain ⟨zombies, waits, pending⟩ := same
  have lives : Lives s := by
    intro signo dead
    cases waits.symm.trans dead
  have spared : Spared sampleSetting s := by
    intro signo listed default
    rw [pending] at listed
    rw [List.mem_singleton.mp listed]
    decide
  obtain ⟨-, ⟨last, steps, stuck⟩, rests⟩ :=
    master_reaps_all sampleSetting reached lives spared
  obtain ⟨-, none, all, -⟩ := rests last steps stuck
  exact ⟨s, last, zombies, steps, none, all⟩

def Launched : MasterPc → Prop
  | .entry | .masked | .spawning _ => False
  | _ => True

structure Flagged (s : Processes) : Prop where
  master : s.master.globals.ngxProcess = .master
  flag : s.reaped ≠ [] ∨ (∃ frame ∈ s.master.frames, ∃ one, frame.stage = .waiting one) →
    s.master.globals.ngxReap = 1

section Launch

variable {setting : Setting} {s after : Processes} {act : Act}

theorem flagged_same (flagged : Flagged s) (globals : after.master.globals = s.master.globals)
    (reaped : after.reaped = s.reaped)
    (frames : ∀ frame ∈ after.master.frames, ∀ one, frame.stage = .waiting one →
      frame ∈ s.master.frames) : Flagged after := by
  constructor
  case master =>
    rw [globals]
    exact flagged.master
  case flag =>
    intro either
    rw [globals]
    apply flagged.flag
    rw [reaped] at either
    rcases either with some | ⟨frame, listed, one, waiting⟩
    · exact Or.inl some
    · exact Or.inr ⟨frame, frames frame listed one waiting, one, waiting⟩

theorem flagged_raise (flagged : Flagged s) {signo : Nat} {sender : Pid}
    (master : after.master = s.master.raise signo sender) (reaped : after.reaped = s.reaped) :
    Flagged after := by
  obtain ⟨pending, rest⟩ := raise_rest s.master signo sender
  rw [rest] at master
  apply flagged_same flagged
  · rw [master]
  · exact reaped
  · intro frame listed one waiting
    rw [master] at listed
    exact listed

theorem handler_flags {globals next : Globals} {signo : Nat} {sender : Pid} {call : LogCall}
    (master : globals.ngxProcess = .master)
    (runs : ngxSignalHandler globals signo sender = some (next, call)) :
    next.ngxProcess = .master ∧ (globals.ngxReap = 1 → next.ngxReap = 1) ∧
      (signo = sigchld → next.ngxReap = 1) := by
  unfold ngxSignalHandler at runs
  cases name : signame signo with
  | none =>
      rw [name] at runs
      cases runs
  | some found =>
      rw [name, master] at runs
      dsimp only [Option.bind_eq_bind, Option.bind_some] at runs
      split at runs <;> cases runs
      all_goals
        split_ifs with child
        · exact ⟨rfl, fun _ => rfl, fun _ => rfl⟩
        · exact ⟨master, id, fun same => absurd same child⟩

theorem flagged_step (flagged : Flagged s) (stepped : Stepped setting s act after) :
    Flagged after := by
  cases stepped with
  | block => exact flagged_same flagged rfl rfl fun _ listed _ _ => listed
  | title => exact flagged_same flagged rfl rfl fun _ listed _ _ => listed
  | forkFailed => exact flagged_same flagged rfl rfl fun _ listed _ _ => listed
  | forked => exact flagged_same flagged rfl rfl fun _ listed _ _ => listed
  | enter => exact flagged_same flagged rfl rfl fun _ listed _ _ => listed
  | suspend => exact flagged_same flagged rfl rfl fun _ listed _ _ => listed
  | awake => exact flagged_same flagged rfl rfl fun _ listed _ _ => listed
  | entered =>
      refine flagged_same flagged rfl rfl fun frame listed one waiting => ?_
      rcases List.mem_cons.mp listed with rfl | below
      · cases waiting
      · exact below
  | dropped => exact flagged_same flagged rfl rfl fun _ listed _ _ => listed
  | killed => exact flagged_same flagged rfl rfl fun _ listed _ _ => nomatch listed
  | handled signo sender rest globals call here runs =>
      obtain ⟨master, keeps, -⟩ := handler_flags flagged.master runs
      constructor
      case master => exact master
      case flag =>
        intro either
        apply keeps
        apply flagged.flag
        rcases either with some | ⟨frame, listed, waiting⟩
        · exact Or.inl some
        · exact Or.inr ⟨frame, List.mem_of_mem_tail listed, waiting⟩
  | asked sender rest globals call here runs =>
      obtain ⟨master, -, sets⟩ := handler_flags flagged.master runs
      exact ⟨master, fun _ => sets rfl⟩
  | again => exact flagged
  | reaped signo one rest pid status here =>
      have asked : s.master.globals.ngxReap = 1 := by
        apply flagged.flag
        refine Or.inr ⟨⟨signo, .waiting one⟩, ?_, one, rfl⟩
        rw [here]
        exact List.mem_cons_self
      exact ⟨flagged.master, fun _ => asked⟩
  | left =>
      exact flagged_same flagged rfl rfl fun _ listed _ _ => List.mem_of_mem_tail listed
  | @raised signo sender =>
      exact flagged_raise flagged rfl rfl
  | raisedWorker => exact flagged_same flagged rfl rfl fun _ listed _ _ => listed
  | worker => exact flagged_same flagged rfl rfl fun _ listed _ _ => listed
  | workerEnds => exact flagged_raise flagged rfl rfl
  | workerTells => exact flagged_raise flagged rfl rfl

structure Unreplaced (s after : Processes) : Prop where
  started : after.started = s.started
  alive : after.alive.Sublist s.alive
  counted : after.alive.length + after.ended.length = s.alive.length + s.ended.length

theorem unreplaced_step (launched : Launched s.master.pc)
    (stepped : Stepped setting s act after) :
    Launched after.master.pc ∧ Unreplaced s after := by
  have left : ∀ master : Proc MasterPc, master.pc = s.master.pc → Launched master.leave.pc := by
    intro master same
    unfold Proc.leave
    dsimp only
    split_ifs
    · trivial
    · rw [same]
      exact launched
  have quiet : ∀ after : Processes, Launched after.master.pc → after.started = s.started →
      after.alive = s.alive → after.ended = s.ended →
        Launched after.master.pc ∧ Unreplaced s after := by
    intro after there started alive ended
    refine ⟨there, started, ?_, ?_⟩
    · rw [alive]
    · rw [alive, ended]
  cases stepped with
  | block mask calls here => exact absurd launched (by rw [here]; exact id)
  | title here => exact absurd launched (by rw [here]; exact id)
  | forkFailed i calls here => exact absurd launched (by rw [here]; exact id)
  | forked i pid here => exact absurd launched (by rw [here]; exact id)
  | enter i here => exact absurd launched (by rw [here]; exact id)
  | suspend => exact quiet _ trivial rfl rfl rfl
  | awake => exact quiet _ trivial rfl rfl rfl
  | entered => exact quiet _ launched rfl rfl rfl
  | dropped => exact quiet _ launched rfl rfl rfl
  | killed => exact quiet _ trivial rfl rfl rfl
  | handled signo sender rest globals => exact quiet _ (left _ rfl) rfl rfl rfl
  | asked => exact quiet _ launched rfl rfl rfl
  | again => exact quiet _ launched rfl rfl rfl
  | reaped => exact quiet _ launched rfl rfl rfl
  | left => exact quiet _ (left _ rfl) rfl rfl rfl
  | raised =>
      refine quiet _ ?_ rfl rfl rfl
      rw [Processes.setMaster, raise_pc]
      exact launched
  | raisedWorker => exact quiet _ launched rfl rfl rfl
  | worker => exact quiet _ launched rfl rfl rfl
  | @workerEnds pid workerAct status listed =>
      have there : Launched (s.endWorker pid status).master.pc := by
        rw [Processes.endWorker, raise_pc]
        exact launched
      refine ⟨there, ?_⟩
      constructor
      case started => rfl
      case alive => exact List.erase_sublist
      case counted =>
        have fewer := List.length_erase_of_mem listed
        have some := List.length_pos_of_mem listed
        simp only [Processes.endWorker, List.length_append, List.length_singleton]
        omega
  | workerTells =>
      refine quiet _ ?_ rfl rfl rfl
      rw [Processes.setMaster, raise_pc]
      exact launched

end Launch

/-- Once the master has started its workers none is started again, whatever signals come
and however workers end, although `ngx_reap` tells it that they do: the workers that are
alive only become fewer, by one for each that ends. -/
theorem workers_not_replaced (setting : Setting) {s after : Processes}
    (reached : Reachable setting anyOrder s) (launched : Launched s.master.pc)
    (steps : Steps (step setting) anyOrder s after) :
    after.started = s.started ∧ after.alive.Sublist s.alive ∧
      after.alive.length + after.ended.length = s.alive.length + s.ended.length ∧
      (after.reaped ≠ [] → after.master.globals.ngxReap = 1) := by
  have flagged : Flagged after := by
    apply invariant_of_step Flagged ?_ ?_ (reachable_steps reached steps)
    · intro start fresh
      obtain ⟨pid, parent, reap, mask, pending, rfl⟩ := fresh
      constructor
      case master => rfl
      case flag =>
        intro either
        rcases either with some | ⟨frame, listed, -⟩
        · exact absurd rfl some
        · cases listed
    · exact fun before act after flagged _ taken => flagged_step flagged (stepped_of_step taken)
  have kept : Unreplaced s after := by
    apply steps_relate (fun now => Launched now.master.pc) Unreplaced ?_ ?_ ?_ launched steps
    · intro before act after launched _ taken
      exact (unreplaced_step launched (stepped_of_step taken)).1
    · exact fun state => ⟨rfl, List.Sublist.refl _, rfl⟩
    · intro start before act after soFar launched _ taken
      have last := (unreplaced_step launched (stepped_of_step taken)).2
      exact ⟨last.started.trans soFar.started, last.alive.trans soFar.alive,
        last.counted.trans soFar.counted⟩
  exact ⟨kept.started, kept.alive, kept.counted, fun some => flagged.flag (Or.inl some)⟩

/-- The only worker ends, and the master goes on without it. -/
theorem workers_not_replaced_sample :
    ∃ s after : Processes, s.alive = [7] ∧ after.alive = [] ∧ after.started = s.started ∧
      after.master.globals.ngxReap = 1 := by
  have seen : (run anyOrder (initFailedRun.take 8)).map (fun s => (s.alive, s.master.pc)) =
      some ([7], .suspended) := by
    decide
  have more : ((run anyOrder (initFailedRun.take 8)).bind fun s =>
      exec (step sampleSetting) (fun s act => decide (anyOrder s act)) s
        (initFailedRun.drop 8)).map (fun s => (s.alive, s.reaped)) =
          some ([], [(7, 65024)]) := by
    decide
  obtain ⟨s, executed, same⟩ := Option.map_eq_some_iff.mp seen
  rw [executed] at more
  obtain ⟨after, rest, last⟩ := Option.map_eq_some_iff.mp more
  have steps := steps_of_exec (fun _ _ => of_decide_eq_true) rest
  have reached : Reachable sampleSetting anyOrder s :=
    ⟨_, ⟨5, 1, 0, [], [], rfl⟩, steps_of_exec (fun _ _ => of_decide_eq_true) executed⟩
  simp only [Prod.mk.injEq] at same last
  have launched : Launched s.master.pc := by
    rw [same.2]
    trivial
  obtain ⟨started, -, -, flag⟩ := workers_not_replaced sampleSetting reached launched steps
  have some : after.reaped ≠ [] := by
    rw [last.2]
    exact List.cons_ne_nil _ _
  exact ⟨s, after, same.1, last.1, started, flag some⟩

end NgxServer.Reaping
