import KaspaPortal.Lib.Buffer
import KaspaPortal.Lib.Pbkdf2

/-!
# Seeds of mnemonics

`src/wallet/mnemonic/bip39/seed.rs`: the derivation in one go and the resumable one. A result of
`none` is a slice out of range, which stops the program. The words and HMAC-SHA512 are parameters;
the checkpoint callback, which takes no part in the seed, is left out, and so are the writes that
wipe local copies.
-/
namespace KaspaPortal.Wallet.Mnemonic
open Lib

/-- `WORDLIST`. Its longest words have eight letters. -/
structure Wordlist where
  words : List Bytes
  length_eq : words.length = 2048
  word_length_le : ∀ word ∈ words, word.length ≤ 8

abbrev Hmac := Bytes → Bytes → FixedBytes 64

def BIP39_PBKDF2_ROUNDS : Nat := 2048

def zeroBuffer (n : Nat) : Bytes := List.replicate n 0

/-! ## Phrase and salt -/

/-- The loop of `serialize_mnemonic`, over the words that are left. -/
def serializeWords (wordlist : Wordlist) :
    (wordIndex : Nat) → List UInt16 → Bytes × Nat → Option (Bytes × Nat)
  | _, [], written => some written
  | wordIndex, index :: rest, (buf, pos) => do
    let (buf, pos) ← if 0 < wordIndex then (copyAt buf pos [0x20]).map (·, pos + 1) else some (buf, pos)
    let word ← wordlist.words[index.toNat]?
    let buf ← copyAt buf pos word
    serializeWords wordlist (wordIndex + 1) rest (buf, pos + word.length)

def serializeMnemonic (wordlist : Wordlist) (indices : List UInt16) (buf : Bytes) :
    Option (Bytes × Nat) :=
  serializeWords wordlist 0 indices (buf, 0)

def buildSalt (passphrase buf : Bytes) : Option (Bytes × Nat) := do
  let buf ← copyAt buf 0 (ascii "mnemonic")
  let buf ← copyAt buf 8 passphrase
  return (buf, 8 + passphrase.length)

/-- The first hash, of the salt and the number of the block in a buffer of their own. -/
def firstHash (hmac : Hmac) (password salt : Bytes) : Option (FixedBytes 64) := do
  let saltWithIndex ← copyAt (zeroBuffer 260) 0 salt
  let saltWithIndex ← copyAt saltWithIndex salt.length [0, 0, 0, 1]
  let message ← upTo saltWithIndex (salt.length + 4)
  return hmac password message

/-! ## In one go -/

def pbkdf2HmacSha512 (hmac : Hmac) (password salt : Bytes) (iterations : Nat) :
    Option (FixedBytes 64) := do
  let first ← firstHash hmac password salt
  -- The previous hash and the result, from round two on.
  let run := (List.range (iterations - 1)).foldl (fun run _ =>
    let next := hmac password run.1.val
    (next, xorBytes run.2 next)) (first, first)
  return run.2

def seedFromIndices (wordlist : Wordlist) (hmac : Hmac) (indices : List UInt16)
    (passphrase : Bytes) : Option (FixedBytes 64) := do
  let (phraseBuf, phraseLen) ← serializeMnemonic wordlist indices (zeroBuffer 256)
  let (saltBuf, saltLen) ← buildSalt passphrase (zeroBuffer 256)
  let password ← upTo phraseBuf phraseLen
  let salt ← upTo saltBuf saltLen
  pbkdf2HmacSha512 hmac password salt BIP39_PBKDF2_ROUNDS

/-! ## Resumable -/

structure SeedDerivation where
  phraseBuf : Bytes
  phraseLen : Nat
  saltBuf : Bytes
  saltLen : Nat
  uPrev : FixedBytes 64
  result : FixedBytes 64
  roundsComplete : Nat
  finished : Bool
  deriving DecidableEq

namespace SeedDerivation

def zero64 : FixedBytes 64 := ⟨zeroBuffer 64, List.length_replicate⟩

def new (wordlist : Wordlist) (indices : List UInt16) (passphrase : Bytes) :
    Option SeedDerivation := do
  let (phraseBuf, phraseLen) ← serializeMnemonic wordlist indices (zeroBuffer 256)
  let (saltBuf, saltLen) ← buildSalt passphrase (zeroBuffer 256)
  return ⟨phraseBuf, phraseLen, saltBuf, saltLen, zero64, zero64, 0, false⟩

/-- `saturating_add` on sixteen bits. -/
def saturatingAdd16 (a b : Nat) : Nat := min (a + b) 65535

variable (hmac : Hmac)

def firstRound (derivation : SeedDerivation) : Option SeedDerivation := do
  let salt ← upTo derivation.saltBuf derivation.saltLen
  let password ← upTo derivation.phraseBuf derivation.phraseLen
  let first ← firstHash hmac password salt
  return { derivation with
    uPrev := first
    result := first
    roundsComplete := 1
    saltBuf := zeroBuffer 256
    saltLen := 0 }

/-- The special first round of `advance`, when a round is asked for and none is complete. -/
def begin (derivation : SeedDerivation) (targetRound : Nat) : Option SeedDerivation :=
  if derivation.roundsComplete = 0 ∧ 0 < targetRound then derivation.firstRound hmac
  else some derivation

def nextRound (derivation : SeedDerivation) (completedRound : Nat) : Option SeedDerivation := do
  let password ← upTo derivation.phraseBuf derivation.phraseLen
  let next := hmac password derivation.uPrev.val
  return { derivation with
    result := xorBytes derivation.result next
    uPrev := next
    roundsComplete := saturatingAdd16 completedRound 1 }

def wipe (derivation : SeedDerivation) : SeedDerivation where
  phraseBuf := zeroBuffer 256
  phraseLen := 0
  saltBuf := zeroBuffer 256
  saltLen := 0
  uPrev := zero64
  result := zero64
  roundsComplete := 0
  finished := derivation.finished

def advance (derivation : SeedDerivation) (roundBudget : UInt16) :
    Option (SeedDerivation × Option (FixedBytes 64)) :=
  if derivation.finished then some (derivation, none)
  else do
    let targetRound :=
      min (saturatingAdd16 derivation.roundsComplete roundBudget.toNat) BIP39_PBKDF2_ROUNDS
    let derivation ← derivation.begin hmac targetRound
    let firstRound := derivation.roundsComplete
    let derivation ←
      (List.range' firstRound (targetRound - firstRound)).foldlM (nextRound hmac) derivation
    if derivation.roundsComplete ≠ BIP39_PBKDF2_ROUNDS then return (derivation, none)
    else return ({ derivation.wipe with finished := true }, some derivation.result)

/-- One call after the other, and what each returns. -/
def advanceAll : SeedDerivation → List UInt16 → Option (List (Option (FixedBytes 64)))
  | _, [] => some []
  | derivation, budget :: rest => do
    let (derivation, returned) ← derivation.advance hmac budget
    let later ← advanceAll derivation rest
    return returned :: later

end SeedDerivation

end KaspaPortal.Wallet.Mnemonic
