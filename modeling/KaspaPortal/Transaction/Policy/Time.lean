import KaspaPortal.Lib.Codec
import KaspaPortal.Lib.Result
import Mathlib.Data.List.Sort

/-!
# Signing policies

`src/transaction/policy/time.rs`. The parser of a single date and the queries that decide nothing
about a transaction are left out. A result of `none` is a counter that overflows, which stops the
program.

The clock itself is outside: a policy is asked with the time it is given.
-/
namespace KaspaPortal.Transaction.Policy
open Lib

def MAX_WEEKLY_WINDOWS : Nat := 4
/-- The dates a policy can name. -/
def MIN_YEAR : Nat := 2000
def MAX_YEAR : Nat := 2099
def SECONDS_PER_DAY : Nat := 86400
def MINUTES_PER_DAY : Nat := 1440

/-- What the policy's texts and fields are refused for. -/
inductive PolicyError where
  | invalidDate | dateOutOfRange | invalidWindow | tooManyWindows | overlappingWindow
  | invalidFormat
  deriving DecidableEq, Repr

/-! ## Dates -/

/-- A date and a time of day, in UTC and without leap seconds. -/
structure UtcDateTime where
  year : UInt16
  month : UInt8
  day : UInt8
  hour : UInt8
  minute : UInt8
  second : UInt8
  deriving DecidableEq

/-- The Gregorian rule. -/
def isLeapYear (year : Nat) : Bool := year % 4 = 0 ∧ (year % 100 ≠ 0 ∨ year % 400 = 0)

/-- Zero for a month that does not exist. -/
def daysInMonth (year month : Nat) : Nat :=
  match month with
  | 1 | 3 | 5 | 7 | 8 | 10 | 12 => 31
  | 4 | 6 | 9 | 11 => 30
  | 2 => if isLeapYear year then 29 else 28
  | _ => 0

/-- Days from 1970 to the start of a year. -/
def daysBeforeYear (year : Nat) : Nat :=
  let y := year - 1
  let before := y * 365 + y / 4 - y / 100 + y / 400
  let baseY := 1969
  let base := baseY * 365 + baseY / 4 - baseY / 100 + baseY / 400
  before - base

/-- Days before a month, in a year without a leap day. -/
def BEFORE : List Nat := [0, 31, 59, 90, 120, 151, 181, 212, 243, 273, 304, 334]

/-- The month has been validated. -/
def daysBeforeMonth (year month : Nat) : Nat :=
  BEFORE.getD (month - 1) 0 + if 2 < month ∧ isLeapYear year then 1 else 0

namespace UtcDateTime

/-- The year first, then the fields within their own ranges. -/
def validate (self : UtcDateTime) : Except PolicyError Unit := do
  rejectIf (self.year.toNat < MIN_YEAR ∨ MAX_YEAR < self.year.toNat) PolicyError.dateOutOfRange
  rejectIf (self.day = 0 ∨ daysInMonth self.year.toNat self.month.toNat < self.day.toNat ∨
    23 < self.hour.toNat ∨ 59 < self.minute.toNat ∨ 59 < self.second.toNat) PolicyError.invalidDate

/-- The seconds of a valid date. -/
def toUnixSeconds (self : UtcDateTime) : Except PolicyError UInt64 := do
  self.validate
  let days := daysBeforeYear self.year.toNat + daysBeforeMonth self.year.toNat self.month.toNat +
    (self.day.toNat - 1)
  return UInt64.ofNat (days * SECONDS_PER_DAY + self.hour.toNat * 3600 + self.minute.toNat * 60 +
    self.second.toNat)

/-- The loop over the years, while the counter lasts: the year and the days that are left. -/
def takeYears : (fuel year days : Nat) → Option (Nat × Nat)
  | 0, _, _ => none
  | fuel + 1, year, days =>
    let yearDays := if isLeapYear year then 366 else 365
    if days < yearDays then some (year, days) else takeYears fuel (year + 1) (days - yearDays)

/-- The loop over the months of a year. -/
def takeMonths (year : Nat) : (fuel month days : Nat) → Option (Nat × Nat)
  | 0, _, _ => none
  | fuel + 1, month, days =>
    let monthDays := daysInMonth year month
    if days < monthDays then some (month, days) else takeMonths year fuel (month + 1) (days - monthDays)

/-- The date of a second that is in range. -/
def dateOf (unix : Nat) : Option UtcDateTime := do
  let seconds := unix % SECONDS_PER_DAY
  let (year, days) ← takeYears (2 ^ 16 - 1970) 1970 (unix / SECONDS_PER_DAY)
  let (month, days) ← takeMonths year (2 ^ 8 - 1) 1 days
  return ⟨UInt16.ofNat year, UInt8.ofNat month, UInt8.ofNat (days + 1), UInt8.ofNat (seconds / 3600),
    UInt8.ofNat (seconds % 3600 / 60), UInt8.ofNat (seconds % 60)⟩

/-- The date of a time within the range, and none outside. -/
def fromUnixSeconds (unix : UInt64) : Except PolicyError (Option UtcDateTime) := do
  let max ← toUnixSeconds ⟨2099, 12, 31, 23, 59, 59⟩
  let min ← toUnixSeconds ⟨2000, 1, 1, 0, 0, 0⟩
  if unix < min ∨ max < unix then throw .dateOutOfRange
  return dateOf unix.toNat

/-- Monday is zero. -/
def weekdayMonday0 (self : UtcDateTime) : Except PolicyError UInt8 := do
  let seconds ← self.toUnixSeconds
  return UInt8.ofNat ((seconds.toNat / SECONDS_PER_DAY + 3) % 7)

end UtcDateTime

/-! ## Windows -/

/-- A span of minutes on one day of the week; the end is not part of it. -/
structure SigningWindow where
  weekday : UInt8
  startMinute : UInt16
  endMinute : UInt16
  deriving DecidableEq

namespace SigningWindow

def EMPTY : SigningWindow := ⟨0, 0, 0⟩

def validate (self : SigningWindow) : Except PolicyError Unit :=
  rejectIf (6 < self.weekday ∨ self.endMinute ≤ self.startMinute ∨
    MINUTES_PER_DAY < self.endMinute.toNat) PolicyError.invalidWindow

/-- Whether a minute of the week falls into the window. -/
def contains (self : SigningWindow) (weekday : UInt8) (minute : UInt16) : Bool :=
  self.weekday = weekday ∧ self.startMinute ≤ minute ∧ minute < self.endMinute

end SigningWindow

/-- Windows of different days never overlap. -/
def windowsOverlap (left right : SigningWindow) : Bool :=
  left.weekday = right.weekday ∧ left.startMinute < right.endMinute ∧
    right.startMinute < left.endMinute

/-- An array of windows. -/
abbrev Windows := { windows : List SigningWindow // windows.length = MAX_WEEKLY_WINDOWS }

/-- Unused windows are empty, so that there are always four. -/
theorem length_padded (written : List SigningWindow) :
    ((written ++ List.replicate MAX_WEEKLY_WINDOWS SigningWindow.EMPTY).take MAX_WEEKLY_WINDOWS).length =
      MAX_WEEKLY_WINDOWS := by
  rw [List.length_take, List.length_append, List.length_replicate]
  omega

/-- The array that starts with some windows and is empty from there on. -/
def Windows.ofList (written : List SigningWindow) : Windows :=
  ⟨(written ++ List.replicate MAX_WEEKLY_WINDOWS SigningWindow.EMPTY).take MAX_WEEKLY_WINDOWS,
    length_padded written⟩

/-! ## Policies -/

/-- When a signer may sign. A count of windows says how many of the four are in use. -/
structure SigningPolicy where
  notBeforeUnix : UInt64
  weeklyEnabled : Bool
  weeklyCount : UInt8
  windows : Windows
  rtcFloorUnix : UInt64
  deriving DecidableEq

/-- Only the first allows; the others say what stood in the way. -/
inductive SigningDecision where
  | allowed | clockInvalid | clockRollback | beforeNotBefore | outsideWeeklyWindow | policyInvalid
  deriving DecidableEq, Repr

/-- Windows are in use exactly when they are enabled, and those not in use are empty. -/
def validateWindowShape (policy : SigningPolicy) : Except PolicyError Unit := do
  let count := policy.weeklyCount.toNat
  rejectIf (MAX_WEEKLY_WINDOWS < count) PolicyError.tooManyWindows
  rejectIf (policy.weeklyEnabled ≠ decide (count ≠ 0)) PolicyError.invalidWindow
  rejectIf ((policy.windows.val.drop count).any (· ≠ SigningWindow.EMPTY)) PolicyError.invalidWindow

/-- The loop over the windows, from one on. -/
def validateWindowList : List SigningWindow → Except PolicyError Unit
  | [] => .ok ()
  | window :: others => do
    window.validate
    rejectIf (others.any (windowsOverlap window)) PolicyError.overlappingWindow
    validateWindowList others

def validateWindows (policy : SigningPolicy) : Except PolicyError Unit :=
  validateWindowList (policy.windows.val.take policy.weeklyCount.toNat)

def validateTime (unix : UInt64) : Except PolicyError Unit := do
  if unix ≠ 0 then
    let _ ← UtcDateTime.fromUnixSeconds unix

def validatePolicyTimes (policy : SigningPolicy) : Except PolicyError Unit := do
  validateTime policy.notBeforeUnix
  validateTime policy.rtcFloorUnix

namespace SigningPolicy

def validate (self : SigningPolicy) : Except PolicyError Unit := do
  validateWindowShape self
  validateWindows self
  validatePolicyTimes self

/-- Whether a date lies in one of the weekly windows. -/
def weeklyDecision (self : SigningPolicy) (now : UtcDateTime) : SigningDecision :=
  match now.weekdayMonday0 with
  | .error _ => .clockInvalid
  | .ok weekday =>
    let minute := now.hour.toUInt16 * 60 + now.minute.toUInt16
    if (self.windows.val.take self.weeklyCount.toNat).any (·.contains weekday minute) then .allowed
    else .outsideWeeklyWindow

/-- The last test of `evaluate`, of a policy with weekly windows. -/
def evaluateWeekly (self : SigningPolicy) (nowUnix : UInt64) : Option SigningDecision :=
  match UtcDateTime.fromUnixSeconds nowUnix with
  | .error _ => some .clockInvalid
  | .ok date => date.map self.weeklyDecision

def evaluate (self : SigningPolicy) (nowUnix : UInt64) : Option SigningDecision :=
  match self.validate with
  | .error _ => some .policyInvalid
  | .ok _ =>
    if self.rtcFloorUnix ≠ 0 ∧ nowUnix < self.rtcFloorUnix then some .clockRollback
    else if self.notBeforeUnix ≠ 0 ∧ nowUnix < self.notBeforeUnix then some .beforeNotBefore
    else if self.weeklyEnabled then self.evaluateWeekly nowUnix
    else some .allowed

end SigningPolicy

/-! ## Text -/

def isAsciiWhitespace (byte : UInt8) : Bool :=
  byte = 0x20 ∨ byte = 0x09 ∨ byte = 0x0a ∨ byte = 0x0c ∨ byte = 0x0d

def trimAscii (text : Bytes) : Bytes :=
  (text.dropWhile isAsciiWhitespace).rdropWhile isAsciiWhitespace

def toAsciiUppercase (byte : UInt8) : UInt8 :=
  if 0x61 ≤ byte ∧ byte ≤ 0x7a then byte - 0x20 else byte

def decimal (input : Bytes) : Except PolicyError UInt16 :=
  input.foldlM (fun value byte =>
    if 0x30 ≤ byte ∧ byte ≤ 0x39 then .ok (value * 10 + (byte - 0x30).toUInt16)
    else .error .invalidFormat) 0

def parseHhmm (hour minute : Bytes) : Except PolicyError UInt16 := do
  let hour ← decimal hour
  let minute ← decimal minute
  if 23 < hour ∨ 59 < minute then throw .invalidWindow
  return hour * 60 + minute

def parseTimeRange : Bytes → Except PolicyError (UInt16 × UInt16)
  | [h, h', 0x3a, m, m', 0x2d, k, k', 0x3a, n, n'] => do
    let start ← parseHhmm [h, h'] [m, m']
    let last ← parseHhmm [k, k'] [n, n']
    return (start, last)
  | _ => .error .invalidFormat

def WEEKDAY_NAMES : List Bytes :=
  [ascii "MON", ascii "TUE", ascii "WED", ascii "THU", ascii "FRI", ascii "SAT", ascii "SUN"]

def parseWeekday (input : Bytes) : Except PolicyError UInt8 :=
  okOr .invalidFormat ((WEEKDAY_NAMES.findIdx? (· = input.map toAsciiUppercase)).map UInt8.ofNat)

def parseWindow (input : Bytes) : Except PolicyError SigningWindow := do
  if input.length < 3 then throw .invalidFormat
  let rest := input.drop 3
  if rest.head?.any isAsciiWhitespace = false then throw .invalidFormat
  let weekday ← parseWeekday (input.take 3)
  let (startMinute, endMinute) ← parseTimeRange (trimAscii rest)
  let value : SigningWindow := ⟨weekday, startMinute, endMinute⟩
  value.validate
  return value

/-- One part of the text, after the windows of the parts before it. -/
def parsePart (windows : List SigningWindow) (raw : Bytes) : Except PolicyError (List SigningWindow) := do
  let part := trimAscii raw
  if part = [] then throw .invalidFormat
  if MAX_WEEKLY_WINDOWS ≤ windows.length then throw .tooManyWindows
  let window ← parseWindow part
  return windows ++ [window]

def parseWindowList (input : Bytes) : Except PolicyError (List SigningWindow) :=
  (input.splitOn 0x3b).foldlM parsePart []

def rejectAdjacentOverlaps (windows : List SigningWindow) : Except PolicyError Unit :=
  rejectIf ((windows.zip windows.tail).any fun pair => windowsOverlap pair.1 pair.2)
    PolicyError.overlappingWindow

/-- The order of the sort keys. -/
def WindowLe (a b : SigningWindow) : Prop :=
  a.weekday < b.weekday ∨ (a.weekday = b.weekday ∧ a.startMinute ≤ b.startMinute)

instance windowLeDecidable : DecidableRel WindowLe :=
  fun a b => inferInstanceAs
    (Decidable (a.weekday < b.weekday ∨ (a.weekday = b.weekday ∧ a.startMinute ≤ b.startMinute)))

/-- Windows with one key overlap, so that the order of such does not matter. -/
def sortWindows (windows : List SigningWindow) : List SigningWindow := windows.insertionSort WindowLe

def parseWeeklyWindows (input : Bytes) : Except PolicyError (Windows × UInt8) := do
  let windows ← parseWindowList input
  let windows := sortWindows windows
  rejectAdjacentOverlaps windows
  return (.ofList windows, UInt8.ofNat windows.length)

end KaspaPortal.Transaction.Policy
