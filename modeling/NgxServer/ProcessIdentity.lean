import NgxServer.ProcessSteps

/-!
# A process knows what it is when a signal comes

A child has the memory of its parent, in which it is the master. The signals that have a
handler are masked around `fork`, and a worker unmasks them only after it has set
`ngx_pid` and `ngx_process`.
-/

namespace NgxServer.ProcessIdentity

open NgxServer.Comm NgxServer.Log NgxServer.Signals NgxServer.ProcessSteps TransitionSystem

set_option autoImplicit false

def masks : Act → Bool
  | .block ok _ => ok
  | _ => true

def masking (_ : Processes) (act : Act) : Prop := masks act = true

instance (s : Processes) (act : Act) : Decidable (masking s act) :=
  inferInstanceAs (Decidable (masks act = true))

/-- What a worker knows of itself where it is. -/
structure Knows (masterPid pid : Pid) (proc : Proc WorkerPc) : Prop where
  masked : ¬ Settled proc.pc → handledSignals ⊆ proc.mask ∧ proc.frames = []
  forked : proc.pc = .forked → proc.globals.ngxPid = masterPid
  named : proc.pc ≠ .forked →
    proc.globals.ngxPid = pid ∧ proc.globals.ngxParent = masterPid
  typed : Settled proc.pc ∨ proc.pc = .typed → proc.globals.ngxProcess = .worker

def Past : MasterPc → Prop
  | .entry | .ended _ => False
  | _ => True

structure Masters (masterPid : Pid) (master : Proc MasterPc) : Prop where
  self : master.globals.ngxPid = masterPid ∧ master.globals.ngxProcess = .master
  masked : Past master.pc → handledSignals ⊆ master.mask

structure Identified (setting : Setting) (s : Processes) : Prop where
  master : Masters s.masterPid s.master
  workers : ∀ pid ∈ s.alive, Knows s.masterPid pid (s.worker pid)
  signed : ∀ line ∈ s.log, line.ngxPid = line.writer
  ends : ∀ entry ∈ s.ended, EndsWith setting entry.2
  spared : ∀ signo, s.master.pc = .ended signo → disposition setting signo = .dfl

section Workers

variable {setting : Setting} {masterPid pid : Pid} {proc after : Proc WorkerPc}

theorem handled_sublist_block : handledSignals ⊆ blockSet := by
  decide

/-- While the signals of the table are masked no handler is entered. -/
theorem masked_blocks {mask : List Nat} {frames : List Frame} {signo : Nat}
    (masked : handledSignals ⊆ mask) (handles : disposition setting signo = .handler) :
    Blocked mask frames signo := by
  have known := (handler_iff setting signo).mp handles
  refine ⟨?_, ?_, Or.inl (masked known)⟩
  · rintro rfl
    exact absurd known (by decide)
  · rintro rfl
    exact absurd known (by decide)

theorem knows_settled (knows : Knows masterPid pid proc) (running : proc.frames ≠ []) :
    Settled proc.pc := by
  by_contra before
  exact running (knows.masked before).2

theorem settled_named {pc : WorkerPc} (settled : Settled pc) : pc ≠ .forked := by
  rintro rfl
  exact settled

/-- A worker that is past its mask has its name and its type. -/
theorem knows_of_settled (settled : Settled proc.pc)
    (self : proc.globals.ngxPid = pid ∧ proc.globals.ngxParent = masterPid)
    (type : proc.globals.ngxProcess = .worker) : Knows masterPid pid proc where
  masked := fun before => absurd settled before
  forked := fun here => absurd here (settled_named settled)
  named := fun _ => self
  typed := fun _ => type

theorem knows_change (knows : Knows masterPid pid proc)
    (change : WorkerChange setting pid proc after) : Knows masterPid pid after := by
  cases change with
  | rename here =>
      have before : ¬ Settled proc.pc := by
        rw [here]
        exact id
      constructor
      case masked => exact fun _ => knows.masked before
      case forked => exact nofun
      case named => exact fun _ => ⟨rfl, knows.forked here⟩
      case typed =>
        intro either
        rcases either with settled | typed
        · exact settled.elim
        · cases typed
  | retype here =>
      have before : ¬ Settled proc.pc := by
        rw [here]
        exact id
      constructor
      case masked => exact fun _ => knows.masked before
      case forked => exact nofun
      case named => exact fun _ => knows.named (by rw [here]; decide)
      case typed => exact fun _ => rfl
  | unmask mask here =>
      exact knows_of_settled trivial (knows.named (by rw [here]; decide))
        (knows.typed (Or.inr here))
  | advance pc here there =>
      exact knows_of_settled there (knows.named (settled_named here)) (knows.typed (Or.inl here))
  | enter signo sender free handles =>
      have settled : Settled proc.pc := by
        by_contra before
        exact free (masked_blocks (knows.masked before).1 handles)
      exact knows_of_settled settled (knows.named (settled_named settled))
        (knows.typed (Or.inl settled))
  | drop signo => exact ⟨knows.masked, knows.forked, knows.named, knows.typed⟩
  | handle globals frames running same =>
      have settled := knows_settled knows running
      obtain ⟨name, parent⟩ := knows.named (settled_named settled)
      have type := knows.typed (Or.inl settled)
      rw [← same] at name parent type
      exact knows_of_settled settled ⟨name, parent⟩ type

end Workers

section Steps

variable {setting : Setting} {s after : Processes} {act : Act}

theorem handler_self {globals after : Globals} {signo : Nat} {sender : Pid} {call : LogCall}
    (runs : ngxSignalHandler globals signo sender = some (after, call)) :
    after.ngxPid = globals.ngxPid ∧ after.ngxProcess = globals.ngxProcess := by
  have same := handler_globals runs
  rw [← same]
  exact ⟨rfl, rfl⟩

theorem signed_note {writer : Pid} {globals : Globals} {calls : List LogCall}
    (signed : ∀ line ∈ s.log, line.ngxPid = line.writer)
    (named : calls = [] ∨ globals.ngxPid = writer) :
    ∀ line ∈ (s.note writer globals calls).log, line.ngxPid = line.writer := by
  intro line listed
  rcases List.mem_append.mp listed with older | new
  · exact signed line older
  · obtain ⟨call, member, rfl⟩ := List.mem_map.mp new
    rcases named with none | self
    · rw [none] at member
      cases member
    · exact self

theorem leave_master {masterPid : Pid} {master : Proc MasterPc}
    (masters : Masters masterPid master) : Masters masterPid master.leave := by
  constructor
  case self => exact masters.self
  case masked =>
    intro past
    apply masters.masked
    unfold Proc.leave at past
    dsimp only at past
    split_ifs at past with woken
    · rw [woken.2]
      trivial
    · exact past

theorem raise_masters {masterPid : Pid} {master : Proc MasterPc}
    (masters : Masters masterPid master) (signo : Nat) (sender : Pid) :
    Masters masterPid (master.raise signo sender) := by
  obtain ⟨pending, same⟩ := raise_rest master signo sender
  rw [same]
  exact ⟨masters.self, masters.masked⟩

theorem raise_knows {masterPid pid : Pid} {proc : Proc WorkerPc}
    (knows : Knows masterPid pid proc) (signo : Nat) (sender : Pid) :
    Knows masterPid pid (proc.raise signo sender) := by
  obtain ⟨pending, same⟩ := raise_rest proc signo sender
  rw [same]
  exact ⟨knows.masked, knows.forked, knows.named, knows.typed⟩

/-- The master, which may have written to the log under its own name, is changed. -/
theorem identified_master (identified : Identified setting s) (calls : List LogCall)
    {master : Proc MasterPc} (masters : Masters s.masterPid master)
    (spared : ∀ signo, master.pc = .ended signo → disposition setting signo = .dfl) :
    Identified setting ((s.masterNote calls).setMaster master) where
  master := masters
  workers := identified.workers
  signed := signed_note identified.signed (Or.inr identified.master.self.1)
  ends := identified.ends
  spared := spared

theorem identified_set (identified : Identified setting s) {master : Proc MasterPc}
    (masters : Masters s.masterPid master)
    (spared : ∀ signo, master.pc = .ended signo → disposition setting signo = .dfl) :
    Identified setting (s.setMaster master) where
  master := masters
  workers := identified.workers
  signed := identified.signed
  ends := identified.ends
  spared := spared

/-- A worker is changed, which may have written to the log. -/
theorem identified_worker (identified : Identified setting s) {pid : Pid}
    {calls : List LogCall} {proc : Proc WorkerPc} (knows : Knows s.masterPid pid proc)
    (named : calls = [] ∨ (s.worker pid).globals.ngxPid = pid) :
    Identified setting ((s.note pid (s.worker pid).globals calls).setWorker pid proc) where
  master := identified.master
  workers := by
    intro other listed
    by_cases same : other = pid
    · subst same
      change Knows s.masterPid other (Function.update s.worker other proc other)
      rw [Function.update_self]
      exact knows
    · change Knows s.masterPid other (Function.update s.worker pid proc other)
      rw [Function.update_of_ne same]
      exact identified.workers other listed
  signed := signed_note identified.signed named
  ends := identified.ends
  spared := identified.spared

theorem identified_quiet_worker (identified : Identified setting s) {pid : Pid}
    {proc : Proc WorkerPc} (knows : Knows s.masterPid pid proc) :
    Identified setting (s.setWorker pid proc) := by
  have quiet : Identified setting
      ((s.note pid (s.worker pid).globals []).setWorker pid proc) :=
    identified_worker identified knows (Or.inl rfl)
  simpa [Processes.note] using quiet

theorem identified_step (identified : Identified setting s)
    (stepped : Stepped setting s act after) (masked : masking s act) :
    Identified setting after := by
  obtain ⟨self, before⟩ := identified.master
  have same : ∀ pc : MasterPc, Past s.master.pc →
      Masters s.masterPid { s.master with pc := pc } :=
    fun pc past => ⟨self, fun _ => before past⟩
  have left : ∀ master : Proc MasterPc, master.pc = s.master.pc →
      ∀ signo, master.leave.pc = .ended signo → disposition setting signo = .dfl := by
    intro master pc signo dead
    unfold Proc.leave at dead
    dsimp only at dead
    split_ifs at dead
    exact identified.spared signo (pc.symm.trans dead)
  cases stepped with
  | @block ok errno mask calls here idle blocks plain =>
      apply identified_master identified
      · constructor
        case self => exact self
        case masked =>
          intro _
          rw [blocks masked]
          exact fun signo known => List.mem_append_right _ (handled_sublist_block known)
      · exact fun signo => nofun
  | title here =>
      apply identified_master identified
      · exact same _ (by rw [here]; trivial)
      · exact fun signo => nofun
  | forkFailed i calls here =>
      apply identified_master identified
      · exact same _ (by rw [here]; trivial)
      · exact fun signo => nofun
  | forked i pid here idle more fresh other =>
      have past : Past s.master.pc := by
        rw [here]
        trivial
      constructor
      case master => exact same _ past
      case workers =>
        intro found listed
        dsimp only at listed ⊢
        rcases List.mem_append.mp listed with older | new
        · have apart : found ≠ pid := by
            rintro rfl
            exact fresh older
          rw [Function.update_of_ne apart]
          exact identified.workers found older
        · rw [List.mem_singleton.mp new, Function.update_self]
          constructor
          case masked => exact fun _ => ⟨before past, rfl⟩
          case forked => exact fun _ => self.1
          case named => exact fun moved => absurd rfl moved
          case typed =>
            intro either
            rcases either with settled | typed
            · exact settled.elim
            · cases typed
      case signed => exact identified.signed
      case ends => exact identified.ends
      case spared => exact fun signo => nofun
  | enter i here =>
      apply identified_set identified
      · exact same _ (by rw [here]; trivial)
      · exact fun signo => nofun
  | suspend here =>
      apply identified_set identified
      · exact same _ (by rw [here]; trivial)
      · exact fun signo => nofun
  | awake here =>
      apply identified_set identified
      · exact same _ (by rw [here]; trivial)
      · exact fun signo => nofun
  | entered => exact identified_set identified ⟨self, before⟩ identified.spared
  | dropped => exact identified_set identified ⟨self, before⟩ identified.spared
  | @killed signo sender found default =>
      apply identified_set identified
      · exact ⟨self, fun past => past.elim⟩
      · intro other dead
        cases dead
        exact default
  | handled signo sender rest globals call here runs =>
      obtain ⟨pid, type⟩ := handler_self runs
      have masters : Masters s.masterPid { s.master with globals := globals } :=
        ⟨⟨pid.trans self.1, type.trans self.2⟩, before⟩
      exact identified_master identified [call] (leave_master masters) (left _ rfl)
  | asked sender rest globals call here runs =>
      obtain ⟨pid, type⟩ := handler_self runs
      have masters : Masters s.masterPid
          { s.master with globals := globals, frames := ⟨sigchld, .waiting false⟩ :: rest } :=
        ⟨⟨pid.trans self.1, type.trans self.2⟩, before⟩
      exact identified_master identified [call] masters identified.spared
  | again => exact identified
  | reaped signo one rest pid status =>
      have taken : Identified setting (take s (.ended pid status)) :=
        ⟨identified.master, identified.workers, identified.signed, identified.ends,
          identified.spared⟩
      exact identified_master taken _ ⟨self, before⟩ identified.spared
  | left signo one rest calls =>
      exact identified_master identified calls (leave_master identified.master) (left _ rfl)
  | raised =>
      apply identified_set identified (raise_masters identified.master _ _)
      intro signo dead
      obtain ⟨pending, rest⟩ := raise_rest s.master _ _
      rw [rest] at dead
      exact identified.spared signo dead
  | raisedWorker other listed =>
      exact identified_quiet_worker identified
        (raise_knows (identified.workers _ listed) _ _)
  | worker proc calls listed plain speaks change =>
      have knows := identified.workers _ listed
      apply identified_worker identified (knows_change knows change)
      rcases speaks with none | named | running
      · exact Or.inl none
      · exact Or.inr (knows.named named).1
      · exact Or.inr (knows.named (settled_named (knows_settled knows running))).1
  | @workerEnds pid workerAct status listed why =>
      obtain ⟨pending, rest⟩ := raise_rest s.master sigchld pid
      constructor
      case master => exact raise_masters identified.master sigchld pid
      case workers => exact fun other there => identified.workers other (List.mem_of_mem_erase there)
      case signed => exact identified.signed
      case ends =>
        intro entry there
        rcases List.mem_append.mp there with older | new
        · exact identified.ends entry older
        · rw [List.mem_singleton.mp new]
          exact why
      case spared =>
        intro signo dead
        rw [Processes.endWorker, rest] at dead
        exact identified.spared signo dead
  | @workerTells pid workerAct proc listed change =>
      have changed := identified_quiet_worker identified
        (knows_change (identified.workers _ listed) change)
      obtain ⟨pending, rest⟩ := raise_rest s.master sigchld pid
      apply identified_set changed (raise_masters identified.master sigchld pid)
      intro signo dead
      rw [rest] at dead
      exact identified.spared signo dead

theorem fresh_identified (fresh : Fresh setting s) : Identified setting s := by
  obtain ⟨pid, parent, reap, mask, pending, rfl⟩ := fresh
  constructor
  case master => exact ⟨⟨rfl, rfl⟩, fun past => past.elim⟩
  case workers =>
    intro other listed
    cases listed
  case signed =>
    intro line listed
    cases listed
  case ends =>
    intro entry listed
    cases listed
  case spared => exact fun signo => nofun

theorem reachable_identified (reached : Reachable setting masking s) : Identified setting s := by
  apply invariant_of_step (Identified setting) ?_ ?_ reached
  · intro start fresh
    exact fresh_identified fresh
  · intro before act after identified masked taken
    exact identified_step identified (stepped_of_step taken) masked

/-- A signal that the table does not name is left as it was. -/
theorem unlisted_of_default {signo : Nat} (default : disposition setting signo = .dfl) :
    signo ∉ signals.map NgxSignal.signo := by
  intro listed
  have known : signo ∈ handledSignals ∨ signo = sigsys := by
    simpa [signals, handledSignals, or_assoc] using listed
  rcases known with handled | rfl
  · rw [(handler_iff setting signo).mpr handled] at default
    cases default
  · have ignored : disposition setting sigsys = .ign := rfl
    rw [ignored] at default
    cases default

end Steps

/-- When the master's `sigprocmask` succeeds, then in every order of steps each line of
the log carries the pid of the process that wrote it; a handler runs in a worker only when
the worker knows that it is one, and which; and no process is ended by a signal of the
table: a worker ends by a failed start or by a signal that the program knows nothing of. -/
theorem processes_identified (setting : Setting) {s : Processes}
    (reached : Reachable setting masking s) :
    (∀ line ∈ s.log, line.ngxPid = line.writer) ∧
      (∀ pid ∈ s.alive, (s.worker pid).frames ≠ [] →
        (s.worker pid).globals.ngxProcess = .worker ∧ (s.worker pid).globals.ngxPid = pid ∧
          (s.worker pid).globals.ngxParent = s.masterPid) ∧
      (∀ entry ∈ s.ended, entry.2 = exitStatus initFailed ∨ entry.2 = exitStatus epollFailed ∨
        ∃ signo core, entry.2 = killedStatus signo core ∧
          signo ∉ signals.map NgxSignal.signo) ∧
      ∀ signo, s.master.pc = .ended signo → signo ∉ signals.map NgxSignal.signo := by
  obtain ⟨-, workers, signed, ends, spared⟩ := reachable_identified reached
  refine ⟨signed, ?_, ?_, fun signo dead => unlisted_of_default (spared signo dead)⟩
  · intro pid listed running
    have knows := workers pid listed
    have settled := knows_settled knows running
    obtain ⟨name, parent⟩ := knows.named (settled_named settled)
    exact ⟨knows.typed (Or.inl settled), name, parent⟩
  · intro entry listed
    rcases ends entry listed with start | epoll | ⟨signo, core, status, default⟩
    · exact Or.inl start
    · exact Or.inr (Or.inl epoll)
    · exact Or.inr (Or.inr ⟨signo, core, status, unlisted_of_default default⟩)

/-- A worker that gets `SIGTERM` before it has its name and handles it when it serves. -/
theorem processes_identified_sample :
    ∃ s, Reachable sampleSetting masking s ∧ s.alive = [7] ∧
      (s.worker 7).frames = [⟨sigterm, .entered 3⟩] ∧
        (s.worker 7).globals.ngxProcess = .worker ∧ (s.worker 7).globals.ngxPid = 7 := by
  have seen : (run masking [.block true 0, .title, .fork (some 7) 0, .raise 7 sigterm 3,
      .worker 7 .rename, .worker 7 .retype, .worker 7 (.unmask true 0),
      .worker 7 (.deliver sigterm false)]).map
        (fun s => (s.alive, (s.worker 7).frames)) =
          some ([7], [⟨sigterm, .entered 3⟩]) := by
    decide
  obtain ⟨s, reached, same⟩ := reachable_of_seen seen
  simp only [Prod.mk.injEq] at same
  obtain ⟨alive, frames⟩ := same
  obtain ⟨-, workers, -, -⟩ := processes_identified sampleSetting reached
  have listed : 7 ∈ s.alive := by
    rw [alive]
    exact List.mem_singleton_self 7
  have running : (s.worker 7).frames ≠ [] := by
    rw [frames]
    exact List.cons_ne_nil _ _
  obtain ⟨type, name, -⟩ := workers 7 listed running
  exact ⟨s, reached, alive, frames, type, name⟩

end NgxServer.ProcessIdentity
