import NgxServer.Comm
import NgxServer.Lib.CMemory
import NgxServer.Lib.TransitionSystem

/-!
# The process title

`ngx_init_setproctitle` moves the environment strings to a block of their own, and
`ngx_setproctitle` writes a title over the command line and the place where the
environment was. The lines of `main` that measure both come with them.
-/

namespace NgxServer.SetProcTitle

open NgxServer.Comm
open CMemory

set_option autoImplicit false

def null : Nat := 0

/-- `environ` and `g_os_argv` are arrays of pointers, each with its final `NULL`. -/
structure Process where
  memory : Memory Byte
  environ : List Nat
  gOsArgv : List Nat
  gpEnvmem : Nat
  gArgvneedmem : Nat
  gEnvneedmem : Nat
  deriving DecidableEq, Repr

def needmem (memory : Memory Byte) : (pointers : List Nat) → Option Nat
  | [] => some 0
  | pointer :: pointers =>
      (string 0 memory pointer).bind fun text =>
        (needmem memory pointers).map fun more => text.length + 1 + more

def countNeedmem (process : Process) (argc : Nat) (argv : List Nat) : Option Process :=
  (needmem process.memory (argv.take argc)).bind fun argvneed =>
    (needmem process.memory (process.environ.takeWhile (· ≠ null))).map fun envneed =>
      { process with
        gArgvneedmem := argvneed
        gEnvneedmem := process.gEnvneedmem + envneed
        gOsArgv := argv }

/-- The loop, from some element of `environ` on: what it makes of the memory and of the
rest of the array. -/
def copyEnviron : (environ : List Nat) → (ptmp : Nat) → (memory : Memory Byte) →
    Option (Memory Byte × List Nat)
  -- an array without its `NULL`
  | [], _, _ => none
  | pointer :: environ, ptmp, memory =>
      if pointer = null then some (memory, pointer :: environ)
      else
        (string 0 memory pointer).bind fun text =>
          let size := text.length + 1
          (strcpy 0 memory ptmp pointer).bind fun copied =>
            (copyEnviron environ (ptmp + size) copied).map fun (after, moved) =>
              (after, ptmp :: moved)

def clearEnvmem (process : Process) (envmem : Nat) : Option Process :=
  (memset process.memory envmem 0 process.gEnvneedmem).map fun cleared =>
    { process with gpEnvmem := envmem, memory := cleared }

def moveEnviron (process : Process) : Option Process :=
  (copyEnviron process.environ process.gpEnvmem process.memory).map fun (after, moved) =>
    { process with memory := after, environ := moved }

def ngxInitSetproctitle (process : Process) (envmem : Nat) : Option Process :=
  (clearEnvmem process envmem).bind moveEnviron

def Process.esy (process : Process) : Nat := process.gArgvneedmem + process.gEnvneedmem

/-- `ngx_setproctitle` of the title at an address. -/
def ngxSetproctitle (process : Process) (title : Nat) : Option Process :=
  (string 0 process.memory title).bind fun text =>
    let ititlelen := text.length
    -- the terminator would not fit
    if process.esy ≤ ititlelen then some process
    else
      match process.gOsArgv with
      | ptmp :: _ :: others =>
          (strcpy 0 process.memory ptmp title).bind fun copied =>
            (memset copied (ptmp + ititlelen) 0 (process.esy - ititlelen)).map fun cleared =>
              { process with memory := cleared, gOsArgv := ptmp :: null :: others }
      | _ => none

structure Titled where
  process : Process
  last : Option (List Byte)

inductive Action
  | setproctitle (title : Nat)
  /-- The rest of the program leaves other contents in the memory. -/
  | elsewhere (cells : List Byte)

def step (state : Titled) : (action : Action) → Option Titled
  | .setproctitle title =>
      (string 0 state.process.memory title).bind fun text =>
        (ngxSetproctitle state.process title).map fun after =>
          { process := after
            last := if text.length < state.process.esy then some text else state.last }
  | .elsewhere cells =>
      some { state with process.memory.cells := cells }

/-- With the block of `argv` and `environ` at `base`: a title is stored outside of it, and
the rest of the program writes neither there nor to `gp_envmem`. -/
def Allowed (base : Nat) (state : Titled) : (action : Action) → Prop
  | .setproctitle title =>
      ∃ text, string 0 state.process.memory title = some text ∧
        Apart title (text.length + 1) base state.process.esy
  | .elsewhere cells =>
      cells.length = state.process.memory.cells.length ∧
        ∀ i, (base ≤ i ∧ i < base + state.process.esy) ∨
            (state.process.gpEnvmem ≤ i ∧
              i < state.process.gpEnvmem + state.process.gEnvneedmem) →
          cells[i]? = state.process.memory.cells[i]?

end NgxServer.SetProcTitle
