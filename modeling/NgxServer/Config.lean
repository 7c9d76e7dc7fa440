import Mathlib.Data.List.DropRight
import NgxServer.Lib.PieceReader
import NgxServer.Printf

/-!
# The configuration file

`CConfig::Load` and `CConfig::GetString`, with `Rtrim` and `Ltrim`. The file is read
with `fgets` into `linebuf`, and each buffer is looked at as if it were a line.
-/

namespace NgxServer.Config

open NgxServer.Comm NgxServer.Printf

set_option autoImplicit false

structure CConfItem where
  itemName : List Byte
  itemContent : List Byte
  deriving DecidableEq, Repr

/-- The sizes of `ItemName` and `ItemContent`, the terminator's cell with them. -/
def itemNameSize : Nat := 50
def itemContentSize : Nat := 500

def linebufSize : Nat := 500

/-- The string read, or `NULL` at the end of the file; the rest of the file; and `feof`. -/
def fgets (size : Nat) (file : List Byte) : Option (List Byte) × List Byte × Bool :=
  let (line, rest, feof) := PieceReader.readPiece (chr '\n') (size - 1) file
  (if line = [] then none else some line, rest, feof)

def rtrim (string : List Byte) : List Byte := string.rdropWhile (· = chr ' ')

def ltrim (string : List Byte) : List Byte := string.dropWhile (· = chr ' ')

def isSkipped (c : Byte) : Prop :=
  c = chr ';' ∨ c = chr ' ' ∨ c = chr '#' ∨ c = chr '\t' ∨ c = chr '\n'

instance (c : Byte) : Decidable (isSkipped c) := by
  unfold isSkipped
  infer_instance

def isLineEnd (c : Byte) : Bool := c = 10 ∨ c = 13 ∨ c = 32

def lblprocstring (linebuf : List Byte) : List Byte := linebuf.rdropWhile isLineEnd

/-- The item of a text with a `=` in it. A name or a content that its array cannot hold with the
terminator has no result. -/
def confItem (linebuf : List Byte) : Option CConfItem :=
  let name := linebuf.takeWhile (· ≠ chr '=')
  let content := (linebuf.dropWhile (· ≠ chr '=')).tail
  if name.length < itemNameSize ∧ content.length < itemContentSize then
    some ⟨ltrim (rtrim name), ltrim (rtrim content)⟩
  else none

/-- One round of the loop: what it appends to `m_ConfigItemList`. -/
def takeLine (line : List Byte) : Option (List CConfItem) :=
  match (cString line).bytes with
  | [] => some []
  | c :: linebuf =>
      if isSkipped c then some []
      else
        match lblprocstring (c :: linebuf) with
        | [] => some []
        | c :: linebuf =>
            if c = chr '[' then some []
            else if chr '=' ∈ c :: linebuf then (confItem (c :: linebuf)).map fun item => [item]
            else some []

def loadLoop : (rounds : Nat) → (file : List Byte) → (feof : Bool) → List CConfItem →
    Option (List CConfItem)
  | _, _, true, items => some items
  | 0, _, false, _ => none
  | rounds + 1, file, false, items =>
      let (line, rest, feof) := fgets linebufSize file
      match line with
      | none => loadLoop rounds rest feof items
      | some line => (takeLine line).bind fun new => loadLoop rounds rest feof (items ++ new)

def load (file : Option (List Byte)) (items : List CConfItem) : Option (Bool × List CConfItem) :=
  match file with
  | none => some (false, items)
  | some file => (loadLoop (file.length + 1) file false items).map fun items => (true, items)

def tolower (c : Byte) : Byte := if chr 'A' ≤ c ∧ c ≤ chr 'Z' then c + 32 else c

def strcasecmpEqual : (s1 s2 : List Byte) → Bool
  | [], [] => true
  | c1 :: s1, c2 :: s2 => tolower c1 = tolower c2 && strcasecmpEqual s1 s2
  | _, _ => false

def getString (pItemname : List Byte) : List CConfItem → Option (List Byte)
  | [] => none
  | item :: items =>
      if strcasecmpEqual item.itemName pItemname then some item.itemContent
      else getString pItemname items

end NgxServer.Config
