import NgxServer.SetProcTitle

/-!
# The block of the command line and the environment

The kernel puts the strings of `argv` and then those of `environ` one behind the other.
Once the environment has been moved, a title may cover the whole block: every write of
`ngx_setproctitle` stays inside it, and the environment is read elsewhere.
-/

namespace NgxServer.TitleBlock

open NgxServer.Comm NgxServer.SetProcTitle
open CMemory

set_option autoImplicit false

/-- What the kernel hands to a program: the strings `args` and `env` from `base` on. -/
structure KernelLayout (args env : List (List Byte)) (base : Nat) (argv : List Nat)
    (process : Process) : Prop where
  some_arg : args ≠ []
  no_nul : ∀ text ∈ args ++ env, 0 ∉ text
  base_pos : null < base
  block : Holds process.memory base (image 0 (args ++ env))
  argv_eq : argv = pointers base args ++ [null]
  environ_eq : process.environ = pointers (base + (image 0 args).length) env ++ [null]
  uncounted : process.gEnvneedmem = 0

structure Unchanged (base : Nat) (counted between : Process) : Prop where
  environ : between.environ = counted.environ
  gOsArgv : between.gOsArgv = counted.gOsArgv
  gArgvneedmem : between.gArgvneedmem = counted.gArgvneedmem
  gEnvneedmem : between.gEnvneedmem = counted.gEnvneedmem
  size : between.memory.cells.length = counted.memory.cells.length
  strings : ∀ i, base + counted.gArgvneedmem ≤ i → i < base + counted.esy →
    between.memory.cells[i]? = counted.memory.cells[i]?

structure FreshBlock (base : Nat) (process : Process) (envmem : Nat) : Prop where
  not_null : null < envmem
  inside : envmem + process.gEnvneedmem ≤ process.memory.cells.length
  apart : Apart envmem process.gEnvneedmem base process.esy

/-- Every `environ[i]` reads the string it is meant to. -/
def EnvironReads (process : Process) (env : List (List Byte)) : Prop :=
  ∃ places, process.environ = places ++ [null] ∧ null ∉ places ∧
    places.map (string 0 process.memory) = env.map some

theorem needmem_image {memory : Memory Byte} {strings : List (List Byte)} {base : Nat}
    (held : Holds memory base (image 0 strings)) (clean : ∀ text ∈ strings, 0 ∉ text) :
    needmem memory (pointers base strings) = some (image 0 strings).length := by
  induction strings generalizing base with
  | nil => rfl
  | cons text strings ih =>
      rw [image, holds_append] at held
      rw [List.forall_mem_cons] at clean
      have rest : Holds memory (base + text.length + 1) (image 0 strings) := by
        simpa [Nat.add_assoc] using held.2
      rw [pointers, needmem, string_of_holds held.1 clean.1, Option.bind_some, ih rest clean.2,
        Option.map_some, image, List.length_append, List.length_append, List.length_singleton]

theorem null_not_pointer {strings : List (List Byte)} {base : Nat} (base_pos : null < base) :
    null ∉ pointers base strings := by
  intro listed
  exact Nat.not_lt_of_le (pointers_ge null listed) base_pos

theorem pointers_length (strings : List (List Byte)) (base : Nat) :
    (pointers base strings).length = strings.length := by
  induction strings generalizing base with
  | nil => rfl
  | cons text strings ih => simp [pointers, ih]

section Counted

variable {args env : List (List Byte)} {base : Nat} {argv : List Nat} {start : Process}

theorem layout_env_pos (layout : KernelLayout args env base argv start) :
    null < base + (image 0 args).length :=
  Nat.lt_of_lt_of_le layout.base_pos (Nat.le_add_right _ _)

theorem count_needmem_layout (layout : KernelLayout args env base argv start) :
    countNeedmem start args.length argv =
      some
        { start with
          gArgvneedmem := (image 0 args).length
          gEnvneedmem := (image 0 env).length
          gOsArgv := argv } := by
  have block := layout.block
  rw [image_append, holds_append] at block
  have argvCount := needmem_image block.1 fun text listed =>
    layout.no_nul text (List.mem_append_left env listed)
  have environCount := needmem_image block.2 fun text listed =>
    layout.no_nul text (List.mem_append_right args listed)
  have argvTaken : argv.take args.length = pointers base args := by
    rw [layout.argv_eq, ← pointers_length args base, List.take_left]
  rw [countNeedmem, argvTaken, argvCount, layout.environ_eq,
    take_while_ne (null_not_pointer (layout_env_pos layout)), environCount, layout.uncounted]
  simp

end Counted

/-- The loop writes the strings one behind the other from `ptmp` on, and nothing else. -/
theorem copy_environ_wrote {memory : Memory Byte} {env : List (List Byte)} {place ptmp : Nat}
    (held : Holds memory place (image 0 env)) (clean : ∀ text ∈ env, 0 ∉ text)
    (place_pos : null < place)
    (inside : ptmp + (image 0 env).length ≤ memory.cells.length)
    (apart : Apart ptmp (image 0 env).length place (image 0 env).length) :
    ∃ after, copyEnviron (pointers place env ++ [null]) ptmp memory =
        some (after, pointers ptmp env ++ [null]) ∧
      Wrote memory after ptmp (image 0 env) := by
  -- The copy of one string leaves the strings behind it where the loop reads them next.
  induction env generalizing memory place ptmp with
  | nil => exact ⟨memory, rfl, wrote_nothing memory ptmp⟩
  | cons text env ih =>
      simp only [image, List.length_append, List.length_singleton] at inside apart
      rw [image, holds_append, List.length_append, List.length_singleton] at held
      rw [List.forall_mem_cons] at clean
      have read := string_of_holds held.1 clean.1
      have text_apart : Apart ptmp (text.length + 1) place (text.length + 1) :=
        apart_within apart (by omega) (by omega)
      obtain ⟨copied, copies, wrote⟩ := strcpy_wrote read text_apart (by omega)
      have rest : Holds copied (place + text.length + 1) (image 0 env) := by
        rw [Nat.add_assoc]
        apply wrote_keeps wrote held.2
        rw [List.length_append, List.length_singleton]
        exact apart_within (apart_symm apart) (by omega) (by omega)
      have rest_inside : ptmp + (text.length + 1) + (image 0 env).length ≤
          copied.cells.length := by
        rw [wrote.size]
        omega
      have rest_apart : Apart (ptmp + (text.length + 1)) (image 0 env).length
          (place + text.length + 1) (image 0 env).length :=
        apart_within apart (by omega) (by omega)
      obtain ⟨after, moved, more⟩ := ih rest clean.2 (by omega) rest_inside rest_apart
      refine ⟨after, ?_, ?_⟩
      · rw [pointers, List.cons_append, copyEnviron, if_neg (Nat.ne_of_gt place_pos), read,
          Option.bind_some, copies, Option.bind_some, moved]
        rfl
      · rw [image]
        apply wrote_append wrote
        simpa using more

structure Moved (env : List (List Byte)) (base : Nat) (process : Process) : Prop where
  inside : base + process.esy ≤ process.memory.cells.length
  apart : Apart process.gpEnvmem process.gEnvneedmem base process.esy
  not_null : null < process.gpEnvmem
  needed : process.gEnvneedmem = (image 0 env).length
  environ : process.environ = pointers process.gpEnvmem env ++ [null]
  strings : Holds process.memory process.gpEnvmem (image 0 env)
  argv : ∃ next others, process.gOsArgv = base :: next :: others

theorem moved_reads {env : List (List Byte)} {base : Nat} {process : Process}
    (clean : ∀ text ∈ env, 0 ∉ text) (moved : Moved env base process) :
    EnvironReads process env :=
  ⟨_, moved.environ, null_not_pointer moved.not_null, pointers_read moved.strings clean⟩

/-- The pointers in `argv`: that to the block, and at least one more. -/
theorem layout_argv {args env : List (List Byte)} {base : Nat} {argv : List Nat}
    {start : Process} (layout : KernelLayout args env base argv start) :
    ∃ next others, argv = base :: next :: others := by
  rw [layout.argv_eq]
  cases split : args with
  | nil => exact absurd split layout.some_arg
  | cons first args =>
      cases more : pointers (base + first.length + 1) args ++ [null] with
      | nil => simp at more
      | cons next others =>
          refine ⟨next, others, ?_⟩
          rw [pointers, List.cons_append, more]

structure Counted (args env : List (List Byte)) (base : Nat) (process : Process) : Prop where
  argvneed : process.gArgvneedmem = (image 0 args).length
  envneed : process.gEnvneedmem = (image 0 env).length
  inside : base + process.esy ≤ process.memory.cells.length
  strings : Holds process.memory (base + (image 0 args).length) (image 0 env)
  environ : process.environ = pointers (base + (image 0 args).length) env ++ [null]
  argv : ∃ next others, process.gOsArgv = base :: next :: others

section Move

variable {args env : List (List Byte)} {base envmem : Nat} {argv : List Nat}
  {start counted between process : Process}

theorem counted_esy (block : Counted args env base process) :
    process.esy = (image 0 args).length + (image 0 env).length := by
  rw [Process.esy, block.argvneed, block.envneed]

theorem image_ne_nil (some_arg : args ≠ []) (env : List (List Byte)) :
    image (0 : Byte) (args ++ env) ≠ [] := by
  cases args with
  | nil => exact absurd rfl some_arg
  | cons first args => simp [image]

theorem unchanged_counted (layout : KernelLayout args env base argv start)
    (counts : countNeedmem start args.length argv = some counted)
    (same : Unchanged base counted between) : Counted args env base between := by
  rw [count_needmem_layout layout] at counts
  cases counts
  have block := layout.block
  have inside := holds_inside block (image_ne_nil layout.some_arg env)
  rw [image_append] at block inside
  rw [List.length_append] at inside
  have esy : between.esy = (image 0 args).length + (image 0 env).length := by
    rw [Process.esy, same.gArgvneedmem, same.gEnvneedmem]
  constructor
  case argvneed => exact same.gArgvneedmem
  case envneed => exact same.gEnvneedmem
  case inside =>
    rw [esy, same.size]
    exact inside
  case strings =>
    apply holds_congr (holds_append.mp block).2
    intro i above below
    rw [Nat.add_assoc] at below
    exact same.strings i above below
  case environ => exact same.environ.trans layout.environ_eq
  case argv =>
    rw [same.gOsArgv]
    exact layout_argv layout

/-- The new block is apart from the environment's part of the old one. -/
theorem fresh_env_apart (block : Counted args env base process)
    (fresh : FreshBlock base process envmem) :
    Apart envmem (image 0 env).length (base + (image 0 args).length) (image 0 env).length := by
  have apart := fresh.apart
  rw [counted_esy block, block.envneed] at apart
  exact apart_within apart (by omega) (by omega)

theorem clear_counted (block : Counted args env base process)
    (fresh : FreshBlock base process envmem) :
    ∃ cleared, clearEnvmem process envmem = some cleared ∧ cleared.gpEnvmem = envmem ∧
      Counted args env base cleared ∧ FreshBlock base cleared envmem := by
  obtain ⟨zeroed, clears, erased⟩ := memset_wrote (0 : Byte) fresh.inside
  have kept : Holds zeroed (base + (image 0 args).length) (image 0 env) := by
    apply wrote_keeps erased block.strings
    rw [List.length_replicate, block.envneed]
    exact apart_symm (fresh_env_apart block fresh)
  refine ⟨{ process with gpEnvmem := envmem, memory := zeroed }, ?_, rfl, ?_, ?_⟩
  · rw [clearEnvmem, clears]
    rfl
  · exact
      { block with
        inside := block.inside.trans (Nat.le_of_eq erased.size.symm)
        strings := kept }
  · constructor
    case not_null => exact fresh.not_null
    case inside => exact fresh.inside.trans (Nat.le_of_eq erased.size.symm)
    case apart => exact fresh.apart

/-- The copy loop writes the bytes of `gp_envmem` once each, in their order. -/
theorem move_counted (block : Counted args env base process)
    (fresh : FreshBlock base process process.gpEnvmem) (clean : ∀ text ∈ env, 0 ∉ text)
    (base_pos : null < base) :
    ∃ moved, moveEnviron process = some moved ∧
      moved.memory.stores =
        process.memory.stores ++ List.range' process.gpEnvmem process.gEnvneedmem ∧
      moved.gpEnvmem = process.gpEnvmem ∧ moved.gArgvneedmem = process.gArgvneedmem ∧
      moved.gEnvneedmem = process.gEnvneedmem ∧ Moved env base moved := by
  have inside := fresh.inside
  rw [block.envneed] at inside
  obtain ⟨copied, copies, wrote⟩ :=
    copy_environ_wrote block.strings clean (by omega) inside (fresh_env_apart block fresh)
  refine ⟨{ process with
      memory := copied
      environ := pointers process.gpEnvmem env ++ [null] }, ?_, ?_, rfl, rfl, rfl, ?_⟩
  · rw [moveEnviron, block.environ, copies]
    rfl
  · rw [wrote.stores, block.envneed]
  · constructor
    case inside => exact block.inside.trans (Nat.le_of_eq wrote.size.symm)
    case apart => exact fresh.apart
    case not_null => exact fresh.not_null
    case needed => exact block.envneed
    case environ => rfl
    case strings => exact wrote_holds wrote
    case argv => exact block.argv

end Move

/-- What a call of `ngx_setproctitle` leaves: it stores inside the block only, and there a
title that fits, with zeros up to the end. -/
structure Retitled (base : Nat) (text : List Byte) (before after : Process) : Prop where
  written : ∃ addrs, after.memory.stores = before.memory.stores ++ addrs ∧
    ∀ addr ∈ addrs, base ≤ addr ∧ addr < base + before.esy
  refused : before.esy ≤ text.length → after = before
  accepted : text.length < before.esy →
    Holds after.memory base (text ++ List.replicate (before.esy - text.length) 0)
  gpEnvmem : after.gpEnvmem = before.gpEnvmem
  gArgvneedmem : after.gArgvneedmem = before.gArgvneedmem
  gEnvneedmem : after.gEnvneedmem = before.gEnvneedmem

section Title

variable {env : List (List Byte)} {base title : Nat} {text : List Byte} {process : Process}

theorem title_stores (moved : Moved env base process)
    (read : string 0 process.memory title = some text)
    (apart : Apart title (text.length + 1) base process.esy) (fits : text.length < process.esy) :
    ∃ copied cleared, strcpy 0 process.memory base title = some copied ∧
      memset copied (base + text.length) 0 (process.esy - text.length) = some cleared ∧
      Wrote process.memory copied base (text ++ [0]) ∧
      Wrote copied cleared (base + text.length)
        (List.replicate (process.esy - text.length) 0) := by
  have inside := moved.inside
  have text_apart : Apart base (text.length + 1) title (text.length + 1) :=
    apart_within (apart_symm apart) (by omega) (by omega)
  obtain ⟨copied, copies, wrote⟩ := strcpy_wrote read text_apart (by omega)
  have zeros_inside : base + text.length + (process.esy - text.length) ≤
      copied.cells.length := by
    rw [wrote.size]
    omega
  obtain ⟨cleared, clears, erased⟩ := memset_wrote (0 : Byte) zeros_inside
  exact ⟨copied, cleared, copies, clears, wrote, erased⟩

section Stores

variable {copied cleared : Memory Byte}
  (wrote : Wrote process.memory copied base (text ++ [0]))
  (erased : Wrote copied cleared (base + text.length)
    (List.replicate (process.esy - text.length) 0))

include wrote erased

theorem stores_keep (fits : text.length < process.esy) {place : Nat} {content : List Byte}
    (held : Holds process.memory place content)
    (apart : Apart place content.length base process.esy) : Holds cleared place content := by
  have copied_apart : Apart place content.length base (text ++ [(0 : Byte)]).length := by
    rw [List.length_append, List.length_singleton]
    exact apart_within apart (by omega) (by omega)
  apply wrote_keeps erased (wrote_keeps wrote held copied_apart)
  rw [List.length_replicate]
  exact apart_within apart (by omega) (by omega)

theorem stores_show :
    Holds cleared base (text ++ List.replicate (process.esy - text.length) 0) := by
  have front := (holds_append.mp (wrote_holds wrote)).1
  rw [holds_append]
  constructor
  · apply wrote_keeps erased front
    exact .inl (Nat.le_refl _)
  · exact wrote_holds erased

theorem stores_written (fits : text.length < process.esy) :
    ∃ addrs, cleared.stores = process.memory.stores ++ addrs ∧
      ∀ addr ∈ addrs, base ≤ addr ∧ addr < base + process.esy := by
  refine ⟨List.range' base (text.length + 1) ++
    List.range' (base + text.length) (process.esy - text.length), ?_, ?_⟩
  · rw [erased.stores, wrote.stores, List.append_assoc, List.length_replicate,
      List.length_append, List.length_singleton]
  · intro addr listed
    rw [List.mem_append, List.mem_range'_1, List.mem_range'_1] at listed
    omega

end Stores

theorem setproctitle_refused (read : string 0 process.memory title = some text)
    (long : process.esy ≤ text.length) :
    ngxSetproctitle process title = some process ∧ Retitled base text process process := by
  constructor
  · rw [ngxSetproctitle, read, Option.bind_some, if_pos long]
  · constructor
    case written => exact ⟨[], by simp⟩
    case refused => exact fun _ => rfl
    case accepted => exact fun fits => absurd long (by omega)
    case gpEnvmem => rfl
    case gArgvneedmem => rfl
    case gEnvneedmem => rfl

theorem setproctitle_accepted (moved : Moved env base process)
    (read : string 0 process.memory title = some text)
    (apart : Apart title (text.length + 1) base process.esy) (fits : text.length < process.esy) :
    ∃ after, ngxSetproctitle process title = some after ∧ Retitled base text process after ∧
      Moved env base after := by
  obtain ⟨next, others, argv⟩ := moved.argv
  obtain ⟨copied, cleared, copies, clears, wrote, erased⟩ := title_stores moved read apart fits
  have envmem_apart := moved.apart
  rw [moved.needed] at envmem_apart
  refine ⟨{ process with memory := cleared, gOsArgv := base :: null :: others }, ?_, ?_, ?_⟩
  · rw [ngxSetproctitle, read, Option.bind_some, if_neg (Nat.not_le_of_lt fits), argv]
    dsimp only
    rw [copies, Option.bind_some, clears]
    rfl
  · constructor
    case written => exact stores_written wrote erased fits
    case refused => exact fun long => absurd fits (Nat.not_lt_of_le long)
    case accepted => exact fun _ => stores_show wrote erased
    case gpEnvmem => rfl
    case gArgvneedmem => rfl
    case gEnvneedmem => rfl
  · constructor
    case inside =>
      have size := erased.size.trans wrote.size
      exact moved.inside.trans (Nat.le_of_eq size.symm)
    case apart => exact moved.apart
    case not_null => exact moved.not_null
    case needed => exact moved.needed
    case environ => exact moved.environ
    case strings => exact stores_keep wrote erased fits moved.strings envmem_apart
    case argv => exact ⟨null, others, rfl⟩

theorem setproctitle_retitled (moved : Moved env base process)
    (read : string 0 process.memory title = some text)
    (apart : Apart title (text.length + 1) base process.esy) :
    ∃ after, ngxSetproctitle process title = some after ∧ Retitled base text process after ∧
      Moved env base after := by
  by_cases fits : text.length < process.esy
  · exact setproctitle_accepted moved read apart fits
  · obtain ⟨unchanged, retitled⟩ := setproctitle_refused read (Nat.le_of_not_lt fits)
    exact ⟨process, unchanged, retitled, moved⟩

end Title

def blockOf (base : Nat) (process : Process) : List Byte :=
  (process.memory.cells.drop base).take process.esy

def shown (original : List Byte) (size : Nat) : (last : Option (List Byte)) → List Byte
  | none => original
  | some text => text ++ List.replicate (size - text.length) 0

structure TitleRun (original : List Byte) (env : List (List Byte)) (base : Nat)
    (start : Process) (state : Titled) : Prop where
  esy : state.process.esy = start.esy
  written : ∃ addrs, state.process.memory.stores = start.memory.stores ++ addrs ∧
    ∀ addr ∈ addrs, base ≤ addr ∧ addr < base + start.esy
  block : Holds state.process.memory base (shown original start.esy state.last)
  fits : ∀ text, state.last = some text → text.length < start.esy
  moved : Moved env base state.process

section Run

variable {original : List Byte} {env : List (List Byte)} {base : Nat} {start : Process}

theorem shown_length (size : original.length = start.esy) {last : Option (List Byte)}
    (fits : ∀ text, last = some text → text.length < start.esy) :
    (shown original start.esy last).length = start.esy := by
  cases last with
  | none => exact size
  | some text =>
      have short := fits text rfl
      rw [shown, List.length_append, List.length_replicate]
      omega

theorem title_run_start (block : Holds start.memory base original)
    (moved : Moved env base start) : TitleRun original env base start ⟨start, none⟩ := by
  constructor
  case esy => rfl
  case written => exact ⟨[], by simp⟩
  case block => exact block
  case fits => exact fun text absent => by cases absent
  case moved => exact moved

theorem title_run_setproctitle {state after : Titled} {title : Nat}
    (run : TitleRun original env base start state)
    (allowed : Allowed base state (.setproctitle title))
    (taken : step state (.setproctitle title) = some after) :
    TitleRun original env base start after := by
  obtain ⟨text, read, apart⟩ := allowed
  obtain ⟨process, titled, retitled, moved⟩ := setproctitle_retitled run.moved read apart
  rw [step, read, Option.bind_some, titled, Option.map_some] at taken
  cases taken
  have esy : process.esy = start.esy := by
    rw [Process.esy, retitled.gArgvneedmem, retitled.gEnvneedmem]
    exact run.esy
  obtain ⟨earlier, stored, inside⟩ := run.written
  obtain ⟨addrs, more, within⟩ := retitled.written
  constructor
  case esy => exact esy
  case written =>
    refine ⟨earlier ++ addrs, ?_, ?_⟩
    · show process.memory.stores = _
      rw [more, stored, List.append_assoc]
    · intro addr listed
      rw [run.esy] at within
      rcases List.mem_append.mp listed with before | now
      · exact inside addr before
      · exact within addr now
  case block =>
    by_cases fits : text.length < state.process.esy
    · have block := retitled.accepted fits
      rw [run.esy] at block
      simp only [if_pos fits]
      exact block
    · rw [retitled.refused (Nat.le_of_not_lt fits)]
      simp only [if_neg fits]
      exact run.block
  case fits =>
    intro other last
    by_cases fits : text.length < state.process.esy
    · simp only [if_pos fits, Option.some.injEq] at last
      rw [← last, ← run.esy]
      exact fits
    · simp only [if_neg fits] at last
      exact run.fits other last
  case moved => exact moved

theorem title_run_elsewhere {state after : Titled} {cells : List Byte}
    (size : original.length = start.esy) (run : TitleRun original env base start state)
    (allowed : Allowed base state (.elsewhere cells))
    (taken : step state (.elsewhere cells) = some after) :
    TitleRun original env base start after := by
  obtain ⟨length, same⟩ := allowed
  cases taken
  constructor
  case esy => exact run.esy
  case written => exact run.written
  case block =>
    apply holds_congr run.block
    intro i above below
    rw [shown_length size run.fits, ← run.esy] at below
    exact same i (.inl ⟨above, below⟩)
  case fits => exact run.fits
  case moved =>
    have strings : Holds { state.process.memory with cells := cells } state.process.gpEnvmem
        (image 0 env) := by
      apply holds_congr run.moved.strings
      intro i above below
      rw [← run.moved.needed] at below
      exact same i (.inr ⟨above, below⟩)
    exact
      { inside := run.moved.inside.trans (Nat.le_of_eq length.symm)
        apart := run.moved.apart
        not_null := run.moved.not_null
        needed := run.moved.needed
        environ := run.moved.environ
        strings := strings
        argv := run.moved.argv }

theorem title_run_steps (size : original.length = start.esy)
    (block : Holds start.memory base original) (moved : Moved env base start) {state : Titled}
    (steps : TransitionSystem.Steps step (Allowed base) ⟨start, none⟩ state) :
    TitleRun original env base start state := by
  apply TransitionSystem.steps_preserve _ steps (title_run_start block moved)
  intro before action after run allowed taken
  cases action with
  | setproctitle title => exact title_run_setproctitle run allowed taken
  | elsewhere cells => exact title_run_elsewhere size run allowed taken

end Run

/-- What every run of titles leaves as it should be: where it has stored, what the block
shows, what `environ` reads; and the next title can be set. -/
structure TitlesExact (env : List (List Byte)) (base : Nat) (start : Process)
    (state : Titled) : Prop where
  written : ∃ addrs, state.process.memory.stores = start.memory.stores ++ addrs ∧
    ∀ addr ∈ addrs, base ≤ addr ∧ addr < base + (start.gArgvneedmem + start.gEnvneedmem)
  block : Holds state.process.memory base
    (shown (blockOf base start) (start.gArgvneedmem + start.gEnvneedmem) state.last)
  fits : ∀ text, state.last = some text →
    text.length < start.gArgvneedmem + start.gEnvneedmem
  environ : EnvironReads state.process env
  defined : ∀ title, Allowed base state (.setproctitle title) →
    ∃ after, step state (.setproctitle title) = some after

theorem titles_exact {env : List (List Byte)} {base : Nat} {start : Process} {state : Titled}
    (clean : ∀ text ∈ env, 0 ∉ text) (moved : Moved env base start)
    (steps : TransitionSystem.Steps step (Allowed base) ⟨start, none⟩ state) :
    TitlesExact env base start state := by
  have size : (blockOf base start).length = start.esy := by
    have inside := moved.inside
    rw [blockOf, List.length_take, List.length_drop]
    omega
  have run := title_run_steps size (holds_take start.memory base start.esy) moved steps
  constructor
  case written => exact run.written
  case block => exact run.block
  case fits => exact run.fits
  case environ => exact moved_reads clean run.moved
  case defined =>
    intro title allowed
    obtain ⟨text, read, apart⟩ := allowed
    obtain ⟨after, titled, -, -⟩ := setproctitle_retitled run.moved read apart
    rw [step, read, Option.bind_some, titled]
    exact ⟨_, rfl⟩

/-- The environment is moved byte for byte, and titles stay in the block it has left. -/
theorem environment_move_exact {args env : List (List Byte)} {base : Nat} {argv : List Nat}
    {start : Process} (layout : KernelLayout args env base argv start) :
    ∃ counted, countNeedmem start args.length argv = some counted ∧
      counted.gArgvneedmem + counted.gEnvneedmem = (image 0 (args ++ env)).length ∧
      ∀ between envmem, Unchanged base counted between → FreshBlock base between envmem →
        ∃ cleared moved, clearEnvmem between envmem = some cleared ∧
          moveEnviron cleared = some moved ∧ ngxInitSetproctitle between envmem = some moved ∧
          moved.gpEnvmem = envmem ∧ moved.gArgvneedmem = counted.gArgvneedmem ∧
          moved.gEnvneedmem = counted.gEnvneedmem ∧
          moved.memory.stores =
            cleared.memory.stores ++ List.range' moved.gpEnvmem moved.gEnvneedmem ∧
          EnvironReads moved env ∧
          ∀ state, TransitionSystem.Steps step (Allowed base) ⟨moved, none⟩ state →
            TitlesExact env base moved state := by
  have clean : ∀ text ∈ env, 0 ∉ text := fun text listed =>
    layout.no_nul text (List.mem_append_right args listed)
  have counts := count_needmem_layout layout
  refine ⟨_, counts, by rw [image_append, List.length_append], ?_⟩
  intro between envmem same fresh
  have block := unchanged_counted layout counts same
  obtain ⟨cleared, clears, placed, still, ready⟩ := clear_counted block fresh
  rw [← placed] at ready
  obtain ⟨moved, moves, stores, kept_place, argvneed, envneed, state⟩ :=
    move_counted still ready clean layout.base_pos
  refine ⟨cleared, moved, clears, moves, ?_, kept_place.trans placed,
    argvneed.trans still.argvneed, envneed.trans still.envneed, ?_, moved_reads clean state, ?_⟩
  · rw [ngxInitSetproctitle, clears, Option.bind_some, moves]
  · rw [stores, kept_place, envneed]
  · intro later steps
    exact titles_exact clean state steps

def sampleStart : Process where
  memory :=
    { cells := [0, 110, 0, 65, 61, 98, 0, 0, 0, 0, 0, 0, 112, 115, 0]
      stores := [] }
  environ := [3, 0]
  gOsArgv := []
  gpEnvmem := 0
  gArgvneedmem := 0
  gEnvneedmem := 0

def sampleCounted : Process :=
  { sampleStart with gArgvneedmem := 2, gEnvneedmem := 4, gOsArgv := [1, 0] }

def sampleMoved : Process :=
  { sampleCounted with
    memory :=
      { cells := [0, 110, 0, 65, 61, 98, 0, 65, 61, 98, 0, 0, 112, 115, 0]
        stores := [7, 8, 9, 10, 7, 8, 9, 10] }
    environ := [7, 0]
    gpEnvmem := 7 }

theorem environment_move_sample :
    ngxInitSetproctitle sampleCounted 7 = some sampleMoved ∧
      EnvironReads sampleMoved [[65, 61, 98]] ∧
      ∃ state, step ⟨sampleMoved, none⟩ (.setproctitle 12) = some state ∧
        state.last = some [112, 115] ∧ TitlesExact [[65, 61, 98]] 1 sampleMoved state := by
  have layout : KernelLayout [[110]] [[65, 61, 98]] 1 [1, 0] sampleStart := by
    constructor <;> decide
  have fresh : FreshBlock 1 sampleCounted 7 := by
    constructor <;> decide
  have same : Unchanged 1 sampleCounted sampleCounted := by
    constructor <;> intros <;> rfl
  obtain ⟨counted, counts, -, moves⟩ := environment_move_exact layout
  have known : countNeedmem sampleStart 1 [1, 0] = some sampleCounted := by decide
  rw [List.length_singleton, known, Option.some.injEq] at counts
  subst counts
  obtain ⟨cleared, moved, -, -, init, -, -, -, -, reads, titles⟩ :=
    moves sampleCounted 7 same fresh
  have copied : ngxInitSetproctitle sampleCounted 7 = some sampleMoved := by decide
  rw [copied, Option.some.injEq] at init
  subst init
  have allowed : Allowed 1 ⟨sampleMoved, none⟩ (.setproctitle 12) :=
    ⟨[112, 115], by decide, by decide⟩
  obtain ⟨state, taken⟩ :
      ∃ state, step ⟨sampleMoved, none⟩ (.setproctitle 12) = some state := ⟨_, rfl⟩
  have last : state.last = some [112, 115] := by
    cases taken
    rfl
  exact ⟨copied, reads, state, taken, last,
    titles state (TransitionSystem.steps_single allowed taken)⟩

end NgxServer.TitleBlock
