import McpHeartbeat.Base.Search
import McpHeartbeat.Py.Convert

/-!
# Cutting text

* `CodePoint.isSpace`: `str.isspace`, of one character; `LINE_BREAKS`;
* `Str.strip`, `Str.split`, `Str.splitlines`, `Str.partition`.
-/

namespace McpHeartbeat

open Base

/-- The characters at which `str.splitlines` breaks a line. -/
def LINE_BREAKS : List Char :=
  ['\n', '\r', '\x0b', '\x0c', '\x1c', '\x1d', '\x1e', '\u0085', '\u2028', '\u2029']

/-- `str.isspace`, of one character. -/
def CodePoint.isSpace : CodePoint → Bool
  | scalar c => isAsciiSpace c || (0x1C ≤ c.toNat && c.toNat ≤ 0x1F) || isWideSpace c
  | surrogate _ => false

namespace Str

/-- `str.strip()`. -/
def strip (s : Str) : Str := trim CodePoint.isSpace s

/-- `str.strip`, of one character. -/
def stripChar (c : CodePoint) (s : Str) : Str := trim (· = c) s

/-- `str.split()`: the words between spaces. -/
def split (s : Str) : List Str := (s.splitOnP CodePoint.isSpace).filter (· ≠ [])

/-- A character in front of the lines of a text. -/
def consLine (c : CodePoint) : List Str → List Str
  | [] => [[c]]
  | line :: lines => (c :: line) :: lines

/-- `str.splitlines()`. -/
def splitlines : Str → List Str
  | [] => []
  | .scalar '\r' :: .scalar '\n' :: s => [] :: splitlines s
  | c :: s =>
    if c ∈ LINE_BREAKS.map .scalar then [] :: splitlines s else consLine c (splitlines s)

/-- `str.partition`: the text before the separator, and the text after it, where it first stands. -/
def partition (s sep : Str) : Str × Str := (cut sep s).getD (s, [])

end Str

end McpHeartbeat
