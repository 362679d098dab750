import KaspaPortal.Lib.Json
import KaspaPortal.Lib.Saturating
import KaspaPortal.Primitives.Hex
import KaspaPortal.Randomness.Evidence

/-!
# The CURBy client

`src/randomness/source/curby/mod.rs`: a cached value, the time of the last attempt, and the calls in
flight. A call reserves its fetch under the lock, waits, and stores what it fetched under
the lock again; between the two any other call may run. The parser of documents, SHA-256 and
base64 are given. A number that is no 64-bit integer is read as `null` is.
-/
namespace KaspaPortal.Randomness
open Lib Primitives

def MIN_REFRESH_MS : UInt64 := 60000

/-- What the client takes from other libraries. -/
structure CurbyLibraries where
  fromStr : Bytes → Except String Json
  sha256 : Bytes → FixedBytes 32
  base64 : Bytes → Option Bytes

/-! ## Responses -/

def findRound (value : Json) : Option Bytes :=
  ["round", "roundNumber", "index"].findSome? fun key =>
    (value.get (ascii key)).bind fun item => item.asStr.or (item.asU64.map fun n => Json.digits n.toNat)

def stripHexPrefix (value : Bytes) : Bytes :=
  if (ascii "0x").isPrefixOf value then value.drop 2 else value

def isHexText (value : Bytes) : Bool :=
  value.length % 2 == 0 && value.all fun b => (decodeHexNibble b).isSome

def looksEncoded (value : Bytes) : Bool :=
  (32 ≤ (stripHexPrefix value).length && isHexText (stripHexPrefix value)) || 24 ≤ value.length

def RANDOM_KEYS : List Bytes :=
  [ascii "randomness", ascii "result", ascii "output", ascii "value", ascii "random", ascii "bytes"]

mutual
def findRandomValue : Json → Option Bytes
  | .string text => if looksEncoded text then some text else none
  | .array items => findInItems items
  | .object members =>
    let found := findInMembers members
    -- The known names first, then every member
    (RANDOM_KEYS.findSome? fun key => (found.find? (·.1 == key)).bind Prod.snd).or
      (found.findSome? Prod.snd)
  | .null => none
  | .bool _ => none
  | .number _ => none

def findInItems : List Json → Option Bytes
  | [] => none
  | item :: rest => (findRandomValue item).or (findInItems rest)

/-- What each member holds. -/
def findInMembers : List (Bytes × Json) → List (Bytes × Option Bytes)
  | [] => []
  | (key, value) :: rest => (key, findRandomValue value) :: findInMembers rest
end

section client
variable (libs : CurbyLibraries)

def decodeValue (value : Bytes) : Except String Bytes :=
  if isHexText (stripHexPrefix value) then
    okOr "Invalid hexadecimal text" (decodeHex (stripHexPrefix value))
  else okOr "unsupported CURBy randomness encoding" (libs.base64 value)

def parseResponse (body : Bytes) (now : UInt64) : Except String CurbyEvidence := do
  rejectIf (1048576 < body.length) "CURBy response exceeds 1 MiB"
  let parsed ← libs.fromStr body
  let encoded ← okOr "CURBy response contained no supported randomness field" (findRandomValue parsed)
  let value ← decodeValue libs encoded
  let result : CurbyEvidence :=
    { round := (findRound parsed).getD (ascii "latest"), value
      rawResponseHash := libs.sha256 body, retrievedAtMs := now, verification := .rawApiUnverified }
  result.validate
  return result

/-! ## The cache -/

structure CacheState where
  evidence : Option CurbyEvidence
  lastAttemptMs : Option UInt64

/-- Nothing fetched yet. -/
def CacheState.default : CacheState := ⟨none, none⟩

/-- A cached value, a refusal, or a fetch that has been reserved. -/
def CacheState.reserveOrCached (self : CacheState) (now : UInt64) :
    Except String (Option CurbyEvidence) × CacheState :=
  if self.evidence.any fun cached => saturatingSub now cached.retrievedAtMs < MIN_REFRESH_MS then
    (.ok self.evidence, self)
  else if self.lastAttemptMs.any fun last => saturatingSub now last < MIN_REFRESH_MS then
    ((okOr "CURBy refresh already attempted within the one-minute rate limit" self.evidence).map some,
      self)
  else (.ok none, { self with lastAttemptMs := some now })

/-! ## Calls in flight -/

/-- The cache and the fetches of all calls: their clock readings in the order they were initiated,
those that wait for a response, and those whose value was stored. -/
structure CurbySystem where
  cache : CacheState
  initiated : List UInt64
  waiting : List Nat
  stored : List Nat

def CurbySystem.initial : CurbySystem := ⟨.default, [], [], []⟩

inductive CurbyEvent where
  /-- A call reads the clock and takes the lock. -/
  | call (now : UInt64)
  /-- A fetch ends, with a response or an error. -/
  | finish (fetch : Nat) (body : Except String Bytes)

def CurbySystem.call (self : CurbySystem) (now : UInt64) : CurbySystem :=
  let reserved := self.cache.reserveOrCached now
  match reserved.1 with
  | .ok none =>
    { self with
      cache := reserved.2
      initiated := self.initiated ++ [now]
      waiting := self.waiting ++ [self.initiated.length] }
  | _ => { self with cache := reserved.2 }

/-- What a fetch makes of its response; nothing when it fails. -/
def CurbySystem.response (self : CurbySystem) (fetch : Nat) (body : Except String Bytes) :
    Option CurbyEvidence := do
  let now ← self.initiated[fetch]?
  let body ← body.toOption
  (parseResponse libs body now).toOption

def CurbySystem.finish (self : CurbySystem) (fetch : Nat) (body : Except String Bytes) : CurbySystem :=
  let waiting := self.waiting.erase fetch
  match self.response libs fetch body with
  | some evidence =>
    { self with
      cache := { self.cache with evidence := some evidence }
      waiting
      stored := self.stored ++ [fetch] }
  | none => { self with waiting }

/-- A fetch ends only while it waits. -/
def CurbySystem.step (self : CurbySystem) : CurbyEvent → Option CurbySystem
  | .call now => some (self.call now)
  | .finish fetch body => if fetch ∈ self.waiting then some (self.finish libs fetch body) else none

def CurbySystem.run (events : List CurbyEvent) : Option CurbySystem :=
  events.foldlM (CurbySystem.step libs) .initial

end client

end KaspaPortal.Randomness
