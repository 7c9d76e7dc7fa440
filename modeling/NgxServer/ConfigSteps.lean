import NgxServer.Config
import NgxServer.Lib.CMemory
import NgxServer.Lib.Halting

/-!
# `Load` step by step

`CConfig::Load` behind its `fopen`, as a machine that takes one step for each test,
each read and each round of the loop at `lblprocstring`. The stream gives a list of
successful reads and then ends, or fails for good. A `CConfItem` is the bytes that the
object has, so a long name runs on into the content.
-/

namespace NgxServer.ConfigSteps

open NgxServer.Comm NgxServer.Printf NgxServer.Config
open CMemory

set_option autoImplicit false

/-- What a successful `fgets` may put in front of its terminator. -/
abbrev Piece := { bytes : List Byte // bytes ≠ [] ∧ bytes.length < linebufSize }

/-- What comes behind the last successful read: the end of the file, seen by that read
already or by the next one only, or an error that persists. -/
inductive Ending
  | endOfFile (withLast : Bool)
  | readError
  deriving DecidableEq, Repr

structure Stream where
  results : List Piece
  ending : Ending
  feof : Bool

def Stream.fgets (fp : Stream) : Option Piece × Stream :=
  match fp.results, fp.ending with
  | piece :: results, ending =>
      (some piece,
        { fp with results := results, feof := decide (results = [] ∧ ending = .endOfFile true) })
  | [], .endOfFile _ => (none, { fp with feof := true })
  -- `feof` is not set, whatever `ferror` would say
  | [], .readError => (none, fp)

def isSpace (c : Byte) : Bool := c = chr ' '

def rtrimLoop (addr : Nat) : (len : Nat) → (memory : Memory Byte) → Option (Memory Byte)
  | 0, memory => some memory
  | len + 1, memory =>
      if memory.cells[addr + len]? = some (chr ' ') then
        (store memory (addr + len) [0]).bind (rtrimLoop addr len)
      else some memory

def rtrimAt (addr : Nat) (memory : Memory Byte) : Option (Memory Byte) :=
  (string 0 memory addr).bind fun text => rtrimLoop addr text.length memory

/-- `Ltrim`: what stands behind the leading spaces is moved to the front. -/
def ltrimAt (addr : Nat) (memory : Memory Byte) : Option (Memory Byte) :=
  (string 0 memory addr).bind fun text =>
    if text.head? = some (chr ' ') then store memory addr (text.dropWhile isSpace ++ [0])
    else some memory

def nameAt : Nat := 0
def contentAt : Nat := itemNameSize

def blankItem : Memory Byte where
  cells := List.replicate (itemNameSize + itemContentSize) 0
  stores := []

def newItem (linebuf : List Byte) : Option (Memory Byte) :=
  let name := linebuf.takeWhile (· ≠ chr '=')
  let content := (linebuf.dropWhile (· ≠ chr '=')).tail
  (store blankItem nameAt name).bind fun named =>
    (store named contentAt (content ++ [0])).bind fun filled =>
      (rtrimAt nameAt filled).bind fun filled =>
        (ltrimAt nameAt filled).bind fun filled =>
          (rtrimAt contentAt filled).bind (ltrimAt contentAt)

inductive Pc
  /-- `while (!feof(fp))`. -/
  | test
  | fgets
  /-- The tests in front of the label. -/
  | skips
  | lblprocstring
  /-- The statements behind the label's loop. -/
  | item
  | fclose
  | returned
  | undefined
  deriving DecidableEq, Repr

structure LoadState where
  pc : Pc
  fp : Stream
  /-- The string in `linebuf`. -/
  linebuf : List Byte
  configItemList : List (Memory Byte)

def LoadState.goto (state : LoadState) (pc : Pc) : LoadState := { state with pc := pc }

def appendItem (state : LoadState) : (item : Option (Memory Byte)) → LoadState
  | some item =>
      { state with pc := .test, configItemList := state.configItemList ++ [item] }
  | none => state.goto .undefined

def loadStep (state : LoadState) : LoadState :=
  match state.pc with
  | .test => if state.fp.feof then state.goto .fclose else state.goto .fgets
  | .fgets =>
      match state.fp.fgets with
      | (some piece, fp) =>
          { state with pc := .skips, fp := fp, linebuf := (cString piece.1).bytes }
      -- `continue`
      | (none, fp) => { state with pc := .test, fp := fp }
  | .skips =>
      match state.linebuf with
      | [] => state.goto .test
      | c :: _ => if isSkipped c then state.goto .test else state.goto .lblprocstring
  | .lblprocstring =>
      match state.linebuf.getLast? with
      | some c =>
          -- `goto lblprocstring`
          if isLineEnd c then { state with linebuf := state.linebuf.dropLast }
          else state.goto .item
      | none => state.goto .item
  | .item =>
      match state.linebuf with
      | [] => state.goto .test
      | c :: rest =>
          if c = chr '[' then state.goto .test
          else if chr '=' ∈ c :: rest then appendItem state (newItem (c :: rest))
          else state.goto .test
  | .fclose => state.goto .returned
  | .returned => state
  | .undefined => state

/-- `Load` when `fopen` has returned a stream; `linebuf` is not initialised. -/
def loadStart (results : List Piece) (ending : Ending) (linebuf : List Byte)
    (configItemList : List (Memory Byte)) : LoadState where
  pc := .test
  fp := { results := results, ending := ending, feof := false }
  linebuf := linebuf
  configItemList := configItemList

def HasReturned (state : LoadState) : Prop := state.pc = .returned

end NgxServer.ConfigSteps
