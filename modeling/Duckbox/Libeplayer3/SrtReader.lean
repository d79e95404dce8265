import Mathlib.Data.List.DropRight

/-!
# The SRT reader

`SrtSubtitleThread` reads a file with `fgets` into an array of `MAXLINELENGTH` bytes, so
what it is given one after the other are pieces of lines, and takes each piece for a line.
A subtitle is passed on by `data_to_manager`, which cuts what ends its last line.

A file is what remains of it; the player is playing, and memory does not run out. A
duration is modelled in milliseconds, before it is divided by 1000.0.

Not modelled: numbers that do not fit an `int`, the text put in the form of ASS, printing.
-/

namespace Duckbox.Libeplayer3.Srt

/-- A byte of a file. -/
abbrev Byte := BitVec 8

/-- `MAXLINELENGTH`. -/
abbrev maxLineLength : Nat := 80

/-- What `fgets` puts in `Data` call after call, behind what is in it: up to a newline, or
as many bytes as there is room for in front of the NUL. -/
def chunks : List Byte → List Byte → List (List Byte)
  | data, [] => if data = [] then [] else [data]
  | data, b :: file =>
    if b = 10 ∨ data.length + 2 = maxLineLength then (data ++ [b]) :: chunks [] file
    else chunks (data ++ [b]) file

/-! ## `sscanf` -/

/-- `isspace`. -/
def isSpace (b : Byte) : Bool := b = 32 ∨ 9 ≤ b.toNat ∧ b.toNat ≤ 13

/-- `isdigit`. -/
def isDigit (b : Byte) : Bool := 48 ≤ b.toNat ∧ b.toNat ≤ 57

/-- The number that digits write. -/
def decimal (digits : List Byte) : Nat := digits.foldl (fun n b => 10 * n + (b.toNat - 48)) 0

/-- A sign, and what is behind it. -/
def scanSign : List Byte → Bool × List Byte
  | [] => (false, [])
  | b :: s => if b = 45 then (true, s) else if b = 43 then (false, s) else (false, b :: s)

/-- `%d`. -/
def scanInt (s : List Byte) : Option (Int × List Byte) :=
  let (negative, s) := scanSign (s.dropWhile isSpace)
  let digits := s.takeWhile isDigit
  if digits = [] then none
  else some (if negative then -(decimal digits : Int) else decimal digits, s.dropWhile isDigit)

/-- A character that is none of space. -/
def scanByte (b : Byte) : List Byte → Option (List Byte)
  | [] => none
  | c :: s => if c = b then some s else none

/-- Hours, minutes, seconds and milliseconds. -/
structure ScannedTime where
  hours : Int
  minutes : Int
  seconds : Int
  millis : Int
deriving DecidableEq, Repr

/-- `%d:%d:%d,%d`. -/
def scanTime (s : List Byte) : Option (ScannedTime × List Byte) := do
  let (hours, s) ← scanInt s
  let s ← scanByte 58 s
  let (minutes, s) ← scanInt s
  let s ← scanByte 58 s
  let (seconds, s) ← scanInt s
  let s ← scanByte 44 s
  let (millis, s) ← scanInt s
  some (⟨hours, minutes, seconds, millis⟩, s)

/-- `%d:%d:%d,%d --> %d:%d:%d,%d`, where all eight are found. -/
def scanTimes (s : List Byte) : Option (ScannedTime × ScannedTime) := do
  let (ini, s) ← scanTime s
  let s ← scanByte 45 (s.dropWhile isSpace)
  let s ← scanByte 45 s
  let s ← scanByte 62 s
  let (fim, _) ← scanTime (s.dropWhile isSpace)
  some (ini, fim)

/-- A time in milliseconds. -/
def ScannedTime.total (t : ScannedTime) : Int :=
  (t.hours * 3600 + t.minutes * 60 + t.seconds) * 1000 + t.millis

/-! ## The thread -/

/-- What is passed on. -/
structure Entry where
  text : List Byte
  pts : BitVec 64
  duration : BitVec 64
deriving DecidableEq, Repr

/-- The variables of the thread, and what it has passed on. -/
structure Reader where
  pos : Nat
  pts : BitVec 64
  duration : BitVec 64
  text : Option (List Byte)
  passed : List Entry
deriving DecidableEq, Repr

/-- A newline or a carriage return. -/
def endsLine (b : Byte) : Bool := b = 10 ∨ b = 13

/-- "Delete last \n or \r", but for the first byte. -/
def strip : List Byte → List Byte
  | [] => []
  | b :: text => b :: text.rdropWhile endsLine

/-- `Data` begins like an empty line. -/
def isBlank (data : List Byte) : Bool :=
  data.head?.any fun b => b = 10 ∨ b = 0 ∨ b = 13

namespace Reader

/-- `data_to_manager`. -/
def dataToManager (r : Reader) (text : List Byte) : Reader :=
  { r with passed := r.passed ++ [⟨strip text, r.pts, r.duration⟩] }

/-- A pass of the thread's loop. -/
def step (r : Reader) (data : List Byte) : Reader :=
  -- a string ends in front of its first NUL
  let string := data.takeWhile (· ≠ 0)
  if r.pos = 0 then if isBlank data then r else { r with pos := 1 }
  else if r.pos = 1 then
    match scanTimes string with
    | none => r
    | some (ini, fim) =>
      let pts := BitVec.ofInt 64 ini.total
      { r with pts := pts, duration := BitVec.ofInt 64 fim.total - pts, pos := 2 }
  else if r.pos = 2 then
    if isBlank data then
      { r.dataToManager (r.text.getD [32, 10]) with text := none, pos := 0 }
    else { r with text := some (r.text.getD [] ++ string) }
  else r

/-- The variables as they are initialised. -/
def start : Reader := ⟨0, 0, 0, none, []⟩

/-- Behind the loop. -/
def finish (r : Reader) : Reader :=
  match r.text with
  | some text => { r.dataToManager text with text := none }
  | none => r

end Reader

/-- `SrtSubtitleThread`: what is passed on of a file. -/
def srtSubtitleThread (file : List Byte) : List Entry :=
  ((chunks [] file).foldl Reader.step Reader.start).finish.passed

/-! ## Files -/

/-- The end of a line, with a carriage return or without. -/
def lineEnd (carriage : Bool) : List Byte := if carriage then [13, 10] else [10]

/-- A line of a file. -/
structure Line where
  text : List Byte
  carriage : Bool
  plain : ∀ b ∈ text, b ≠ 0 ∧ b ≠ 10 ∧ b ≠ 13

def Line.bytes (line : Line) : List Byte := line.text ++ lineEnd line.carriage

/-- A digit. -/
def digit (n : Nat) : Byte := BitVec.ofNat 8 (48 + n)

/-- A time as it is written in a file. -/
structure Time where
  hours : Fin 100
  minutes : Fin 60
  seconds : Fin 60
  millis : Fin 1000
deriving DecidableEq, Repr

namespace Time

def bytes (t : Time) : List Byte :=
  [digit (t.hours / 10), digit (t.hours % 10), 58, digit (t.minutes / 10), digit (t.minutes % 10), 58,
    digit (t.seconds / 10), digit (t.seconds % 10), 44,
    digit (t.millis / 100), digit (t.millis / 10 % 10), digit (t.millis % 10)]

def total (t : Time) : Nat := (t.hours * 3600 + t.minutes * 60 + t.seconds) * 1000 + t.millis

end Time

/-- An entry of a file: its number, its times, and one line of text at least. -/
structure Block where
  number : Line
  start : Time
  finish : Time
  carriage : Bool
  lines : List Line
  last : Line
  digits : number.text ≠ [] ∧ ∀ b ∈ number.text, isDigit b = true
  ordered : start.total ≤ finish.total
  visible : ∀ line ∈ lines ++ [last], line.text ≠ []

namespace Block

/-- What is in front of the last line. -/
def front (block : Block) : List Byte :=
  block.number.bytes ++ (block.start.bytes ++ ([32, 45, 45, 62, 32] ++ (block.finish.bytes ++
    (lineEnd block.carriage ++ block.lines.flatMap Line.bytes))))

/-- The text of all lines, less the last end of one. -/
def text (block : Block) : List Byte := block.lines.flatMap Line.bytes ++ block.last.text

/-- The entry that is to be passed on. -/
def entry (block : Block) : Entry :=
  ⟨block.text, BitVec.ofNat 64 block.start.total,
    BitVec.ofNat 64 (block.finish.total - block.start.total)⟩

end Block

/-- A file: empty lines, blocks with empty lines behind each, and it may be one that ends
with the file, or even in front of the end of its last line. -/
structure File where
  leading : List Bool
  closed : List (Block × Bool × List Bool)
  final : Option (Block × Bool)

namespace File

def emptyLines (carriages : List Bool) : List Byte := carriages.flatMap lineEnd

def bytes (file : File) : List Byte :=
  emptyLines file.leading ++
    (file.closed.flatMap (fun (block, carriage, carriages) =>
        block.front ++ block.last.bytes ++ emptyLines (carriage :: carriages)) ++
      file.final.elim [] fun (block, ended) =>
        block.front ++ if ended then block.last.bytes else block.last.text)

def blocks (file : File) : List Block :=
  file.closed.map Prod.fst ++ (file.final.map Prod.fst).toList

/-- What is to be passed on. -/
def entries (file : File) : List Entry := file.blocks.map Block.entry

end File

end Duckbox.Libeplayer3.Srt
