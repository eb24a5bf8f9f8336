import McpHeartbeat.Base.Calendar
import McpHeartbeat.Py.Json

/-!
# `datetime`

Instants are integers: microseconds since the first of January of year `1`, UTC. A `datetime` is
an instant within the years `1` to `9999`.

* `Datetime`, `Datetime.instant`; `Datetime.ofInstant?`: arithmetic that leaves the range is the
  `OverflowError` of the library;
* `fromisoformat`: `datetime.fromisoformat` as the library documents it, `none` for its
  `ValueError`; it yields the local reading and the offset, if there is one;
* `strftime`: the format `%Y-%m-%dT%H:%M:%S.%f`; `strftimeSeconds`: what precedes its `%f`. Below
  year `1000` the width of `%Y` depends on the platform.
-/

namespace McpHeartbeat

open Base Json

/-- One second in microseconds. -/
def second : ℕ := 1000000

/-- One day in microseconds. -/
def day : ℕ := 86400 * second

/-- The end of year `9999`. -/
def maxMicros : ℕ := 3652059 * day

/-- A `datetime` in UTC. -/
structure Datetime where
  micros : ℕ
  lt : micros < maxMicros
deriving DecidableEq

namespace Datetime

/-- The instant of a `datetime`. -/
def instant (t : Datetime) : ℤ := t.micros

/-- The `datetime` of an instant; `none` is the `OverflowError`. -/
def ofInstant? (t : ℤ) : Option Datetime :=
  if h : 0 ≤ t ∧ t < maxMicros then some ⟨t.toNat, by omega⟩ else none

theorem ofInstant?_eq_some {n : ℤ} {t : Datetime} (h : ofInstant? n = some t) : t.instant = n := by
  unfold ofInstant? at h
  split_ifs at h with hb
  obtain rfl := Option.some.inj h
  show (n.toNat : ℤ) = n
  exact Int.toNat_of_nonneg hb.1

/-- An instant of the calendar is a `datetime`. -/
theorem ofInstant?_instant (t : Datetime) : ofInstant? t.instant = some t := by
  have h : 0 ≤ t.instant ∧ t.instant < maxMicros :=
    ⟨Int.natCast_nonneg _, Int.ofNat_lt.mpr t.lt⟩
  rw [ofInstant?, dif_pos h]
  rfl

/-- `datetime + timedelta`. -/
def add? (t : Datetime) (delta : ℤ) : Option Datetime := ofInstant? (t.instant + delta)

/-- The ordinal of the day. -/
def ordinal (t : Datetime) : ℕ := t.micros / day + 1

/-- Microseconds since midnight. -/
def timeOfDay (t : Datetime) : ℕ := t.micros % day

end Datetime

/-! ## Reading -/

/-- The value of an ASCII digit. -/
def digitVal : CodePoint → Option ℕ
  | .scalar c => if c.isDigit then some (c.toNat - '0'.toNat) else none
  | .surrogate _ => none

/-- Exactly `n` ASCII digits off the front, continuing the number `acc`. -/
def takeDigits : ℕ → ℕ → Str → Option (ℕ × Str)
  | 0, acc, s => some (acc, s)
  | n + 1, acc, c :: s => (digitVal c).bind fun d => takeDigits n (acc * 10 + d) s
  | _ + 1, _, [] => none

/-- Take `c` off the front if `present`. -/
def skip (present : Bool) (c : Char) : Str → Option Str
  | s => if present then (if s.head? = some (.scalar c) then some s.tail else none) else some s

/-- `_find_isoformat_datetime_separator`. -/
def separatorLocation (s : Str) : Option ℕ :=
  if s.length = 7 then some 7
  else if s[4]? = some (.scalar '-') then
    if s[5]? = some (.scalar 'W') then
      if s[8]? = some (.scalar '-') then
        if s.length = 9 then none
        -- `YYYY-Www-##`: either the separator is the hyphen or `#` is the weekday
        else if (s[10]?.bind digitVal).isSome then some 8 else some 10
      else some 8
    else some 10
  else if s[4]? = some (.scalar 'W') then
    let idx := 7 + ((s.drop 7).takeWhile fun c => (digitVal c).isSome).length
    if idx < 9 then some idx else if idx % 2 = 0 then some 7 else some 8
  else some 8

/-- `_isoweek_to_gregorian`, as an ordinal. -/
def isoweekToOrdinal (year week weekday : ℕ) : Option ℕ :=
  let first := ymd2ord year 1 1
  let long := first % 7 = 4 ∨ first % 7 = 3 ∧ isLeap year
  if 1 ≤ year ∧ year ≤ 9999 ∧ 1 ≤ week ∧ (week ≤ 52 ∨ week = 53 ∧ long) ∧
      1 ≤ weekday ∧ weekday ≤ 7 then
    let firstWeekday := (first + 6) % 7
    let monday := first - firstWeekday + (if 3 < firstWeekday then 7 else 0)
    let n := monday + (week - 1) * 7 + (weekday - 1)
    if n ≤ 3652059 then some n else none
  else none

/-- `_parse_isoformat_date`, as an ordinal. -/
def parseIsoformatDate (s : Str) : Option ℕ := do
  let (year, r) ← takeDigits 4 0 s
  let sep := r.head? = some (.scalar '-')
  let r ← skip sep '-' r
  if r.head? = some (.scalar 'W') then
    let (week, r) ← takeDigits 2 0 r.tail
    if r = [] then isoweekToOrdinal year week 1
    else
      let r ← skip sep '-' r
      let (weekday, _) ← takeDigits 1 0 r
      isoweekToOrdinal year week weekday
  else
    let (month, r) ← takeDigits 2 0 r
    let r ← skip sep '-' r
    let (d, _) ← takeDigits 2 0 r
    if 1 ≤ year ∧ year ≤ 9999 ∧ 1 ≤ month ∧ month ≤ 12 ∧ 1 ≤ d ∧ d ≤ daysInMonth (isLeap year) month
    then some (ymd2ord year month d) else none

/-- Hours, minutes, seconds and microseconds. -/
structure TimeParts where
  hour : ℕ
  minute : ℕ
  second : ℕ
  micro : ℕ
deriving DecidableEq

/-- The parts as microseconds. -/
def TimeParts.micros (t : TimeParts) : ℕ :=
  (t.hour * 3600 + t.minute * 60 + t.second) * McpHeartbeat.second + t.micro

/-- A decimal fraction of a second, truncated to microseconds. -/
def fractionMicros (f : Str) : Option ℕ :=
  if f ≠ [] ∧ f.all (fun c => (digitVal c).isSome) then
    let w := min 6 f.length
    (takeDigits w 0 f).map fun p => p.1 * 10 ^ (6 - w)
  else none

/-- `_parse_hh_mm_ss_ff`: `HH[:?MM[:?SS[{.,}f+]]]`. -/
def parseHhMmSsFf (s : Str) : Option TimeParts := do
  let (hour, r) ← takeDigits 2 0 s
  let sep := r.head? = some (.scalar ':')
  if r = [] then return ⟨hour, 0, 0, 0⟩
  let r ← skip sep ':' r
  let (minute, r) ← takeDigits 2 0 r
  if r = [] then return ⟨hour, minute, 0, 0⟩
  let r ← skip sep ':' r
  let (second, r) ← takeDigits 2 0 r
  match r with
  | [] => return ⟨hour, minute, second, 0⟩
  | c :: f =>
    if c = .scalar '.' ∨ c = .scalar ',' then
      let micro ← fractionMicros f
      return ⟨hour, minute, second, micro⟩
    else none

/-- The symbols that begin an offset. -/
def isOffsetSign (c : CodePoint) : Bool :=
  c == .scalar '+' || c == .scalar '-' || c == .scalar 'Z'

/-- `_parse_isoformat_time`: the time of day and the offset in microseconds, if there is one. -/
def parseIsoformatTime (s : Str) : Option (TimeParts × Option ℤ) := do
  let time ← parseHhMmSsFf (s.takeWhile fun c => !isOffsetSign c)
  match s.dropWhile fun c => !isOffsetSign c with
  | [] => return (time, none)
  | c :: r =>
    if c = .scalar 'Z' then
      if r = [] then return (time, some 0) else none
    else
      let offset ← parseHhMmSsFf r
      -- `timezone` takes offsets strictly within a day
      if offset.micros < day then
        return (time, some (if c = .scalar '-' then -(offset.micros : ℤ) else offset.micros))
      else none

/-- `datetime.fromisoformat`: microseconds of the local reading, and the offset. -/
def fromisoformat (s : Str) : Option (ℕ × Option ℤ) :=
  if s.length < 7 then none
  else do
    let loc ← separatorLocation s
    let ordinal ← parseIsoformatDate (s.take loc)
    if s.length ≤ loc then return ((ordinal - 1) * day, none)
    let (time, offset) ← parseIsoformatTime (s.drop (loc + 1))
    if time.hour < 24 ∧ time.minute < 60 ∧ time.second < 60 then
      return ((ordinal - 1) * day + time.micros, offset)
    else none

/-! ## Writing -/

/-- `n` with exactly `w` digits. -/
def fixed : ℕ → ℕ → Str
  | 0, _ => []
  | w + 1, n => fixed w (n / 10) ++ [digit (n % 10)]

/-- `strftime("%Y-%m-%dT%H:%M:%S.")`. -/
def strftimeSeconds (padsYear : Bool) (t : Datetime) : Str :=
  let (y, m, d) := ord2ymd t.ordinal
  let seconds := t.timeOfDay / second
  (if padsYear then fixed 4 y else natText y) ++ py "-" ++ fixed 2 m ++ py "-" ++ fixed 2 d ++
    py "T" ++ fixed 2 (seconds / 3600) ++ py ":" ++ fixed 2 (seconds / 60 % 60) ++ py ":" ++
    fixed 2 (seconds % 60) ++ py "."

/-- `strftime("%Y-%m-%dT%H:%M:%S.%f")`; `padsYear` says whether `%Y` pads years below `1000`. -/
def strftime (padsYear : Bool) (t : Datetime) : Str :=
  let (y, m, d) := ord2ymd t.ordinal
  let seconds := t.timeOfDay / second
  (if padsYear then fixed 4 y else natText y) ++ py "-" ++ fixed 2 m ++ py "-" ++ fixed 2 d ++
    py "T" ++ fixed 2 (seconds / 3600) ++ py ":" ++ fixed 2 (seconds / 60 % 60) ++ py ":" ++
    fixed 2 (seconds % 60) ++ py "." ++ fixed 6 (t.timeOfDay % second)

end McpHeartbeat
