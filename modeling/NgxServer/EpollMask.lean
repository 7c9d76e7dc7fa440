import NgxServer.Lib.WriteAhead
import NgxServer.Socket

/-!
# The recorded event mask and the kernel's

`pConn->events` is a copy of the mask that the kernel holds for the descriptor, and
`ngx_epoll_oper_event` computes the next mask from it. The copy is written before
`epoll_ctl` is called and stays as written when the call fails.
-/

namespace NgxServer.EpollMask

open NgxServer.Comm NgxServer.State NgxServer.Socket
open WriteAhead

set_option autoImplicit false

/-- The arguments of one call, and what its `epoll_ctl` does on an open descriptor. -/
structure EpollCall where
  eventtype : EpollCtl
  flag : BitVec 32
  bcaction : Nat
  ctlOk : Bool
  deriving DecidableEq, Repr

def operEvent (fd : Int) (c : ConnId) (server : Server) (call : EpollCall) : Server × Int :=
  ngxEpollOperEvent server fd call.eventtype call.flag call.bcaction c call.ctlOk

def runCalls (fd : Int) (c : ConnId) (server : Server) (calls : List EpollCall) : Server :=
  calls.foldl (fun state call => (operEvent fd c state call).1) server

def AddThenMods : (calls : List EpollCall) → Prop
  | [] => False
  | first :: others => first.eventtype = .add ∧ ∀ call ∈ others, call.eventtype = .mod

def addWrite (ctlOk : Bool) : EpollCall := ⟨.mod, epollOut, 0, ctlOk⟩
def removeWrite (ctlOk : Bool) : EpollCall := ⟨.mod, epollOut, 1, ctlOk⟩

/-- The recorded mask follows the kernel's along a sequence of calls. -/
structure MaskFollows (fd : Int) (c : ConnId) (server : Server) (calls : List EpollCall) :
    Prop where
  equal : ∀ done call, done ++ [call] <+: calls →
    ∀ mask, (runCalls fd c server (done ++ [call])).kmask c = some mask →
      ((runCalls fd c server (done ++ [call])).conns c).events = mask
  kept : ∀ done call, done ++ [call] <+: calls →
    (operEvent fd c (runCalls fd c server done) call).2 = -1 →
      ((runCalls fd c server (done ++ [call])).conns c).events =
        ((runCalls fd c server done).conns c).events
  /-- Adding `EPOLLOUT` and removing it again, both with success. -/
  restored : ∀ done, done <+: calls → ∀ mask, (runCalls fd c server done).kmask c = some mask →
    (operEvent fd c (runCalls fd c server done) (addWrite true)).2 = 1 →
    (operEvent fd c (runCalls fd c server (done ++ [addWrite true])) (removeWrite true)).2 = 1 →
      (runCalls fd c server (done ++ [addWrite true, removeWrite true])).kmask c =
        some (mask &&& ~~~epollOut)

def CtlFails (fd : Int) (call : EpollCall) : Prop :=
  call.eventtype ≠ .del ∧ (call.ctlOk = false ∨ fd = -1)

/-- With the flags `recorded` so far the call asks for no change: flags to add are all
recorded, of those to remove none is, a new mask is the recorded one. -/
def AsksNoChange (recorded : BitVec 32) (call : EpollCall) : Prop :=
  if call.eventtype = .mod ∧ call.bcaction = 0 then recorded &&& call.flag = call.flag
  else if call.eventtype = .mod ∧ call.bcaction = 1 then recorded &&& call.flag = 0#32
  else call.flag = recorded

def nextMask (call : EpollCall) (recorded : BitVec 32) : BitVec 32 :=
  match call.eventtype with
  | .add => call.flag
  | .mod =>
      if call.bcaction = 0 then recorded ||| call.flag
      else if call.bcaction = 1 then recorded &&& ~~~call.flag
      else call.flag
  | .del => recorded

def maskMirror (server : Server) (c : ConnId) : Mirror (BitVec 32) where
  copy := (server.conns c).events
  register := server.kmask c

def maskWrite (fd : Int) (call : EpollCall) : Write (BitVec 32) where
  update := nextMask call
  landed := decide (call.eventtype ≠ .del ∧ call.ctlOk ∧ fd ≠ -1)

/-- A call is a write of the mirror. -/
theorem oper_event_mirror (fd : Int) (c : ConnId) (server : Server) (call : EpollCall) :
    maskMirror (operEvent fd c server call).1 c =
      (maskMirror server c).write (maskWrite fd call) := by
  rcases call with ⟨eventtype, flag, bcaction, ctlOk⟩
  by_cases success : ctlOk ∧ fd ≠ -1
  · cases eventtype <;>
      simp [operEvent, ngxEpollOperEvent, maskMirror, maskWrite, Mirror.write, nextMask,
        success, Server.modConn]
  · cases eventtype <;>
      simp [operEvent, ngxEpollOperEvent, maskMirror, maskWrite, Mirror.write, nextMask,
        success, Server.modConn]

theorem oper_event_result (fd : Int) (c : ConnId) (server : Server) (call : EpollCall) :
    (operEvent fd c server call).2 = -1 ↔ CtlFails fd call := by
  rcases call with ⟨eventtype, flag, bcaction, ctlOk⟩
  cases eventtype <;> simp [operEvent, ngxEpollOperEvent, CtlFails] <;> grind

theorem run_calls_mirror (fd : Int) (c : ConnId) (server : Server) (calls : List EpollCall) :
    maskMirror (runCalls fd c server calls) c =
      (maskMirror server c).run (calls.map (maskWrite fd)) := by
  induction calls generalizing server with
  | nil => rfl
  | cons call calls ih =>
      have later := ih (operEvent fd c server call).1
      rw [oper_event_mirror] at later
      exact later

theorem run_calls_snoc (fd : Int) (c : ConnId) (server : Server) (calls : List EpollCall)
    (call : EpollCall) :
    runCalls fd c server (calls ++ [call]) =
      (operEvent fd c (runCalls fd c server calls) call).1 := by
  rw [runCalls, List.foldl_append]
  rfl

theorem or_eq_self_iff (mask flag : BitVec 32) : mask ||| flag = mask ↔ mask &&& flag = flag := by
  rw [BitVec.eq_of_getElem_eq_iff, BitVec.eq_of_getElem_eq_iff]
  apply forall₂_congr
  intro i bound
  rw [BitVec.getElem_or, BitVec.getElem_and]
  cases mask[i] <;> cases flag[i] <;> decide

theorem and_not_eq_self_iff (mask flag : BitVec 32) :
    mask &&& ~~~flag = mask ↔ mask &&& flag = 0#32 := by
  rw [BitVec.eq_of_getElem_eq_iff, BitVec.eq_of_getElem_eq_iff]
  apply forall₂_congr
  intro i bound
  rw [BitVec.getElem_and, BitVec.getElem_not, BitVec.getElem_and, BitVec.getElem_zero]
  cases mask[i] <;> cases flag[i] <;> decide

theorem or_and_not (mask flag : BitVec 32) : (mask ||| flag) &&& ~~~flag = mask &&& ~~~flag := by
  ext i
  simp [Bool.and_or_distrib_right]

theorem next_mask_eq_iff (call : EpollCall) (recorded : BitVec 32)
    (asks : call.eventtype ≠ .del) :
    nextMask call recorded = recorded ↔ AsksNoChange recorded call := by
  rcases call with ⟨eventtype, flag, bcaction, ctlOk⟩
  cases eventtype with
  | add => simp [nextMask, AsksNoChange]
  | mod =>
      by_cases adds : bcaction = 0
      · simp [nextMask, AsksNoChange, adds, or_eq_self_iff]
      · by_cases removes : bcaction = 1
        · simp [nextMask, AsksNoChange, removes, and_not_eq_self_iff]
        · simp [nextMask, AsksNoChange, adds, removes]
  | del => exact absurd rfl asks

/-- A failed call is idle exactly when it asks for no change. -/
theorem idle_iff (fd : Int) (c : ConnId) (server : Server) (call : EpollCall) :
    (maskMirror server c).Idle (maskWrite fd call) ↔
      (CtlFails fd call → AsksNoChange (server.conns c).events call) := by
  by_cases deletes : call.eventtype = .del
  · have idle : nextMask call (server.conns c).events = (server.conns c).events := by
      rw [nextMask, deletes]
    simp [Mirror.Idle, maskWrite, maskMirror, CtlFails, deletes, idle]
  · have refused : (maskWrite fd call).landed = false ↔ CtlFails fd call := by
      simp [maskWrite, CtlFails, deletes]
      grind
    rw [Mirror.Idle, refused, ← next_mask_eq_iff call _ deletes]
    rfl

/-- What holds of every write with the writes before it, said of the calls. -/
theorem forall_prefix_map {Call Outcome : Type} (f : Call → Outcome) (calls : List Call)
    (holds : List Outcome → Outcome → Prop) :
    (∀ done outcome, done ++ [outcome] <+: calls.map f → holds done outcome) ↔
      ∀ done call, done ++ [call] <+: calls → holds (done.map f) (f call) := by
  constructor
  · intro all done call reached
    apply all
    simpa using reached.map f
  · intro all done outcome reached
    obtain ⟨front, before, same⟩ := List.prefix_map_iff.mp reached
    obtain ⟨done, last, rfl, rfl, single⟩ := List.append_eq_map_iff.mp same
    obtain ⟨call, rfl, rfl⟩ := List.map_eq_singleton_iff.mp single
    exact all done call before

theorem fails_idle_iff (fd : Int) (c : ConnId) (server : Server) (calls : List EpollCall) :
    (∀ done write, done ++ [write] <+: calls.map (maskWrite fd) →
        ((maskMirror server c).run done).Idle write) ↔
      ∀ done call, done ++ [call] <+: calls → CtlFails fd call →
        AsksNoChange ((runCalls fd c server done).conns c).events call := by
  rw [forall_prefix_map]
  apply forall₃_congr
  intro done call reached
  rw [← run_calls_mirror]
  exact idle_iff fd c (runCalls fd c server done) call

theorem toggle_restores {fd : Int} {c : ConnId} {server : Server} {mask : BitVec 32}
    (inStep : (maskMirror server c).InStep) (held : server.kmask c = some mask)
    (opened : fd ≠ -1) :
    (runCalls fd c server [addWrite true, removeWrite true]).kmask c =
      some (mask &&& ~~~epollOut) := by
  have there : maskWrite fd (addWrite true) = ⟨(· ||| epollOut), true⟩ := by
    simp [maskWrite, addWrite, opened]
    rfl
  have back : maskWrite fd (removeWrite true) = ⟨(· &&& ~~~epollOut), true⟩ := by
    simp [maskWrite, removeWrite, opened]
    rfl
  have written : ((maskMirror server c).run
      [⟨(· ||| epollOut), true⟩, ⟨(· &&& ~~~epollOut), true⟩]).register =
        some ((mask ||| epollOut) &&& ~~~epollOut) := round_trip inStep held
  have same := congrArg Mirror.register
    (run_calls_mirror fd c server [addWrite true, removeWrite true])
  simp only [List.map_cons, List.map_nil, there, back] at same
  rw [written, or_and_not] at same
  exact same

/-- When no failed call asks for a change, the two masks agree after every call. -/
theorem masks_agree {fd : Int} {c : ConnId} {server : Server} {calls : List EpollCall}
    (start : (maskMirror server c).InStep)
    (quiet : ∀ done call, done ++ [call] <+: calls → CtlFails fd call →
      AsksNoChange ((runCalls fd c server done).conns c).events call)
    {done : List EpollCall} (reached : done <+: calls) :
    (maskMirror (runCalls fd c server done) c).InStep := by
  rw [run_calls_mirror]
  apply run_in_step start
  rw [fails_idle_iff]
  intro earlier call before
  exact quiet earlier call (before.trans reached)

/-- The recorded mask follows the kernel's along a sequence of calls exactly when every
call that fails asks for no change. -/
theorem mask_follows_iff (fd : Int) (c : ConnId) (server : Server) (calls : List EpollCall)
    (unregistered : server.kmask c = none) :
    MaskFollows fd c server calls ↔
      ∀ done call, done ++ [call] <+: calls → CtlFails fd call →
        AsksNoChange ((runCalls fd c server done).conns c).events call := by
  have start : (maskMirror server c).InStep := by
    intro mask held
    rw [maskMirror, unregistered] at held
    cases held
  constructor
  · intro follows done call reached fails
    have kept := follows.kept done call reached ((oper_event_result _ _ _ _).mpr fails)
    rw [run_calls_snoc] at kept
    rw [← next_mask_eq_iff call _ fails.1]
    have recorded := congrArg Mirror.copy (oper_event_mirror fd c (runCalls fd c server done) call)
    exact recorded.symm.trans kept
  · intro quiet
    constructor
    case equal =>
      intro done call reached mask held
      exact masks_agree start quiet reached mask held
    case kept =>
      intro done call reached failed
      have fails := (oper_event_result _ _ _ _).mp failed
      rw [run_calls_snoc]
      have recorded := congrArg Mirror.copy
        (oper_event_mirror fd c (runCalls fd c server done) call)
      exact recorded.trans ((next_mask_eq_iff call _ fails.1).mpr (quiet done call reached fails))
    case restored =>
      intro done reached mask held added _
      have opened : fd ≠ -1 := by
        intro closed
        rw [(oper_event_result _ _ _ _).mpr (by simp [CtlFails, addWrite, closed])] at added
        cases added
      rw [runCalls, List.foldl_append]
      exact toggle_restores (masks_agree start quiet reached) held opened

def addRead : EpollCall := ⟨.add, epollIn ||| epollRdhup, 0, true⟩

/-- A call that fails to add a flag which is recorded already does no harm. -/
theorem mask_follows_repeated_add :
    MaskFollows 7 0 (Server.construct []) [addRead, addWrite true, addWrite false] := by
  apply (mask_follows_iff 7 0 (Server.construct []) _ rfl).mpr
  intro done call reached fails
  have listed := (List.mem_inits _ _).mpr reached
  simp only [List.inits, List.map_cons, List.map_nil, List.mem_cons, List.append_eq_nil_iff,
    List.cons_ne_self, and_false, List.not_mem_nil, or_false, false_or] at listed
  rcases listed with first | second | third
  · have split : done ++ [call] = [] ++ [addRead] := first
    obtain ⟨rfl, rfl⟩ := List.append_singleton_inj.mp split
    exact absurd fails (by simp [CtlFails, addRead])
  · have split : done ++ [call] = [addRead] ++ [addWrite true] := second
    obtain ⟨rfl, rfl⟩ := List.append_singleton_inj.mp split
    exact absurd fails (by simp [CtlFails, addWrite])
  · have split : done ++ [call] = [addRead, addWrite true] ++ [addWrite false] := third
    obtain ⟨rfl, rfl⟩ := List.append_singleton_inj.mp split
    simp only [AsksNoChange]
    decide

/-- The kernel refuses to add `EPOLLOUT`, and the record has it. After a refused overwrite
the kernel loses `EPOLLRDHUP` when `EPOLLOUT` is added and removed. -/
theorem failed_add_write_recorded :
    let refused := runCalls 7 0 (Server.construct []) [addRead, addWrite false]
    let overwritten : List EpollCall := [addRead, ⟨.mod, epollIn, 2, false⟩]
    AddThenMods [addRead, addWrite false] ∧ AddThenMods overwritten ∧
      (operEvent 7 0 (runCalls 7 0 (Server.construct []) [addRead]) (addWrite false)).2 = -1 ∧
      refused.kmask 0 = some (epollIn ||| epollRdhup) ∧
      (refused.conns 0).events = epollIn ||| epollRdhup ||| epollOut ∧
      (runCalls 7 0 (Server.construct []) overwritten).kmask 0 = some (epollIn ||| epollRdhup) ∧
      (runCalls 7 0 (Server.construct [])
        (overwritten ++ [addWrite true, removeWrite true])).kmask 0 = some epollIn ∧
      ¬MaskFollows 7 0 (Server.construct []) [addRead, addWrite false] ∧
      ¬MaskFollows 7 0 (Server.construct []) overwritten := by
  intro refused overwritten
  have diverged : ¬MaskFollows 7 0 (Server.construct []) [addRead, addWrite false] := by
    intro follows
    have kept := follows.kept [addRead] (addWrite false) (List.prefix_refl _) (by decide)
    exact absurd kept (by decide)
  have lost : ¬MaskFollows 7 0 (Server.construct []) overwritten := by
    intro follows
    have restored := follows.restored overwritten (List.prefix_refl _)
      (epollIn ||| epollRdhup) (by decide) (by decide) (by decide)
    exact absurd restored (by decide)
  exact ⟨by simp [AddThenMods, addRead, addWrite], by simp [AddThenMods, addRead, overwritten],
    by decide, by decide, by decide, by decide, by decide, diverged, lost⟩

end NgxServer.EpollMask
