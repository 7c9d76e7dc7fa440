import NgxServer.NumberFormat

/-!
# The log

`ngx_log.cxx`: the line that `ngx_log_stderr` writes to the terminal and the one
that `ngx_log_error_core` writes to the log file. Both lines are formatted in
`errstr`; the second one takes the first as its format.
-/

namespace NgxServer.Log

open NgxServer.Comm NgxServer.Printf NgxServer.NumberFormat BoundedSink

set_option autoImplicit false

def ngxMaxErrorStr : Nat := 2048

def ngxLogStderrLevel : Nat := 0

def stderrFileno : Int := 2

def text (s : String) : List Byte := s.toList.map chr

def literal (s : String) : CString := cString (text s)

def errLevels : List CString :=
  ["stderr", "emerg", "alert", "crit", "error", "warn", "notice", "info", "debug"].map literal

structure Tm where
  tmYear : BitVec 32
  tmMon : BitVec 32
  tmMday : BitVec 32
  tmHour : BitVec 32
  tmMin : BitVec 32
  tmSec : BitVec 32

structure LogEnv where
  fd : Int
  logLevel : Int
  tm : Tm
  ngxPid : BitVec 32
  strerror : BitVec 32 → CString

def sprintfInt (value : BitVec 32) : List Byte :=
  if value.toInt < 0 then chr '-' :: Numeral.spell decimal value.toInt.natAbs
  else Numeral.spell decimal value.toNat

def leftstr (err : BitVec 32) : List Byte := text " (" ++ sprintfInt err ++ text ": "

def rightstr : List Byte := text ") "

/-- The cells of `leftstr`, the terminator's one with them. -/
def leftstrSize : Nat := 10

def ngxLogErrno (strerror : BitVec 32 → CString) (last : Nat) (buf : List Byte)
    (err : BitVec 32) : Option (List Byte) :=
  let perrorinfo := (strerror err).bytes
  if (leftstr err).length < leftstrSize then
    if buf.length + perrorinfo.length + ((leftstr err).length + rightstr.length) < last then do
      let buf ← copy last buf (leftstr err)
      let buf ← copy last buf perrorinfo
      copy last buf rightstr
    else some buf
  else none

def appendErrno (strerror : BitVec 32 → CString) (last : Nat) (buf : List Byte)
    (err : BitVec 32) : Option (List Byte) :=
  if err = 0 then some buf else ngxLogErrno strerror last buf err

/-- What is left of `errstr` when the newline is stored, which may need the last bytes' place. -/
def beforeNewline (p : List Byte) : List Byte :=
  if p.length ≥ ngxMaxErrorStr - 1 then p.take (ngxMaxErrorStr - 2) else p

def timeFormat : CString := literal "%4d/%02d/%02d %02d:%02d:%02d"

/-- The distance to the address -1. -/
def farLast : Nat := 2 ^ 64 - 1

def linePrefix (env : LogEnv) (level : Nat) : Option (List Byte) := do
  let strcurrtime ← ngxVslprintf farLast [] timeFormat
    [.int (env.tm.tmYear + 1900), .int (env.tm.tmMon + 1), .int env.tm.tmMday,
      .int env.tm.tmHour, .int env.tm.tmMin, .int env.tm.tmSec]
  let p ← copy ngxMaxErrorStr [] (cString strcurrtime).bytes
  let name ← errLevels[level]?
  let p ← ngxVslprintf ngxMaxErrorStr p (literal " [%s] ") [.str name]
  ngxVslprintf ngxMaxErrorStr p (literal "%P: ") [.int env.ngxPid]

/-- The bytes that are written to the log file. -/
def ngxLogErrorCore (env : LogEnv) (level : Nat) (err : BitVec 32) (fmt : CString)
    (args : List VaArg) : Option (List Byte) := do
  let p ← linePrefix env level
  let p ← ngxVslprintf ngxMaxErrorStr p fmt args
  let p ← appendErrno env.strerror ngxMaxErrorStr p err
  some (if (level : Int) > env.logLevel then [] else beforeNewline p ++ [chr '\n'])

/-- The bytes that are written to the terminal and to the log file. -/
def ngxLogStderr (env : LogEnv) (err : BitVec 32) (fmt : CString) (args : List VaArg) :
    Option (List Byte × List Byte) := do
  let p ← copy ngxMaxErrorStr [] (text "nginx: ")
  let p ← ngxVslprintf ngxMaxErrorStr p fmt args
  let p ← appendErrno env.strerror ngxMaxErrorStr p err
  let errstr := beforeNewline p
  if env.fd > stderrFileno then
    -- The newline is overwritten by the terminator, and `err` is set to 0.
    let logged ← ngxLogErrorCore env ngxLogStderrLevel 0 (cString errstr) []
    some (errstr ++ [chr '\n'], logged)
  else some (errstr ++ [chr '\n'], [])

end NgxServer.Log
