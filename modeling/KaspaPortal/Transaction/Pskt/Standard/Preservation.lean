import KaspaPortal.Lib.Growing
import KaspaPortal.Primitives.Script
import KaspaPortal.Transaction.Pskt.Json

/-!
# Captured fields

`src/transaction/interchange/pskt/shared.rs` and
`src/transaction/interchange/pskt/standard/preservation.rs`: the byte ranges of the decoded JSON that
hold the fields the transaction model has no place for, each with the object it stands in. What is
read from a range is checked again, since the ranges may come from outside.
-/
namespace KaspaPortal.Transaction.Pskt.Serializer
open Lib Primitives

/-- The errors of the serializer. -/
inductive PskError where
  | unexpectedToken | duplicateField | tooManyInputs | tooManyOutputs | tooManyUnknownRegions
  | invalidScriptLen | countMismatch | outputBufferTooSmall | invalidCovenantBinding
  | inputAmountOverflow | outputAmountOverflow | outputsExceedInputs
  deriving DecidableEq, Repr

/-- Envelope format of a transaction payload exchanged with the signer. -/
inductive TxInputFormat where
  | ksptCompact | psktPskb | psktSingle
  deriving DecidableEq, Repr

def MAX_PSKT_UNKNOWN_REGIONS : Nat := 16

inductive PsktUnknownScopeKind where
  | topLevel | global | input | inputUtxo | inputOutpoint | output
  deriving DecidableEq, Repr

/-- The object that a captured field stands in. -/
structure PsktUnknownScope where
  kind : PsktUnknownScopeKind
  index : UInt32
  deriving DecidableEq, Repr

namespace PsktUnknownScope

def topLevel : PsktUnknownScope := ⟨.topLevel, 0⟩
def global : PsktUnknownScope := ⟨.global, 0⟩

end PsktUnknownScope

/-- One captured range, which starts at the key. -/
structure UnknownRegion where
  start : UInt32
  stop : UInt32
  scope : PsktUnknownScope
  deriving DecidableEq, Repr

/-- What the parser keeps beside the transaction. -/
structure PsktParsed where
  unknowns : { regions : List UnknownRegion // regions.length = MAX_PSKT_UNKNOWN_REGIONS }
  unknownsCount : UInt8
  jsonStart : UInt32
  jsonLen : UInt32
  /-- Bit `n` is set when output `n` explicitly carried a `covenantBinding` field. -/
  outputCovenantBindingPresent : UInt16
  deriving DecidableEq

def PsktParsed.outputHasCovenantBindingField (self : PsktParsed) (index : Nat) : Bool :=
  index < 16 && (self.outputCovenantBindingPresent &&& (1 <<< UInt16.ofNat index)) != 0

structure CapturedField where
  key : Bytes
  fieldStart : UInt32
  valueStart : UInt32
  stop : UInt32
  deriving DecidableEq

/-- The first byte of a range that is no blank, or the end of the range. -/
def skipWsInRange (bytes : Bytes) (start stop : Nat) : Nat :=
  match (slice bytes start stop).bind fun range => range.findIdx? fun b => !Cursor.isBlank b with
  | some relative => start + relative
  | none => stop

def capturedBounds (parsed : PsktParsed) (scratchLen : Nat) (region : UnknownRegion) :
    Except PskError (Nat × Nat) := do
  let position := region.start.toNat
  let stop := region.stop.toNat
  let jsonStart := parsed.jsonStart.toNat
  let jsonEnd := jsonStart + parsed.jsonLen.toNat
  rejectIf (position < jsonStart ∨ stop ≤ position) PskError.unexpectedToken
  rejectIf (jsonEnd < stop ∨ scratchLen < jsonEnd) PskError.unexpectedToken
  return (position, stop)

/-- The key between its quotes, where the field starts, and the place behind the key. -/
def capturedKey (scratch : Bytes) (position stop : Nat) : Except PskError (Bytes × Nat × Nat) := do
  let fieldStart := skipWsInRange scratch position stop
  rejectIf (scratch[fieldStart]? ≠ some Cursor.QUOTE) PskError.unexpectedToken
  let keyStart := fieldStart + 1
  let relative ← okOr .unexpectedToken
    ((slice scratch keyStart stop).bind fun range => range.findIdx? fun b => b == Cursor.QUOTE)
  let quote := keyStart + relative
  return (cut scratch keyStart quote, fieldStart, quote + 1)

def capturedValueStart (scratch : Bytes) (position stop : Nat) : Except PskError Nat := do
  let colon := skipWsInRange scratch position stop
  rejectIf (scratch[colon]? ≠ some Cursor.COLON) PskError.unexpectedToken
  let value := skipWsInRange scratch (colon + 1) stop
  rejectIf (stop ≤ value) PskError.unexpectedToken
  return value

def capturedFieldAt (parsed : PsktParsed) (scratch : Bytes) (index : Nat) :
    Except PskError (Option (PsktUnknownScope × CapturedField)) :=
  if parsed.unknownsCount.toNat ≤ index then .ok none
  else do
    let region ← okOr .tooManyUnknownRegions parsed.unknowns.val[index]?
    let (position, stop) ← capturedBounds parsed scratch.length region
    let (key, fieldStart, position) ← capturedKey scratch position stop
    let valueStart ← capturedValueStart scratch position stop
    return some (region.scope, {
      key := key
      fieldStart := UInt32.ofNat fieldStart
      valueStart := UInt32.ofNat valueStart
      stop := region.stop })

/-- The loop of `findCapturedValue`, over the indices that are left. -/
def findCapturedFrom (parsed : PsktParsed) (scratch : Bytes) (scope : PsktUnknownScope)
    (name : Bytes) : List Nat → Except PskError (Option (UInt32 × UInt32))
  | [] => .ok none
  | index :: indices => do
    match ← capturedFieldAt parsed scratch index with
    | none => findCapturedFrom parsed scratch scope name indices
    | some (capturedScope, field) =>
      if capturedScope = scope ∧ field.key = name then return some (field.valueStart, field.stop)
      else findCapturedFrom parsed scratch scope name indices

/-- Locate a captured value by both scope and field name. -/
def findCapturedValue (parsed : PsktParsed) (scratch : Bytes) (scope : PsktUnknownScope)
    (name : Bytes) : Except PskError (Option (UInt32 × UInt32)) :=
  findCapturedFrom parsed scratch scope name (List.range parsed.unknownsCount.toNat)

def requiredFieldAt (parsed : PsktParsed) (scratch : Bytes) (index : Nat) :
    Except PskError (PsktUnknownScope × CapturedField) := do
  let field ← capturedFieldAt parsed scratch index
  okOr .unexpectedToken field

def validScope (scope : PsktUnknownScope) (numInputs numOutputs : Nat) : Bool :=
  match scope.kind with
  | .topLevel | .global => scope.index == 0
  | .input | .inputUtxo | .inputOutpoint => scope.index.toNat < numInputs
  | .output => scope.index.toNat < numOutputs

def validateScope (scope : PsktUnknownScope) (numInputs numOutputs : Nat) : Except PskError Unit :=
  rejectIf (validScope scope numInputs numOutputs = false) PskError.unexpectedToken

/-- Every range is readable, stands in an object that is there, and no field is captured twice. -/
def validatePreservationMetadata (parsed : PsktParsed) (scratch : Bytes)
    (numInputs numOutputs : Nat) : Except PskError Unit := do
  let count := parsed.unknownsCount.toNat
  rejectIf (MAX_PSKT_UNKNOWN_REGIONS < count) PskError.tooManyUnknownRegions
  (List.range count).forM fun index => do
    let (scope, field) ← requiredFieldAt parsed scratch index
    validateScope scope numInputs numOutputs
    (List.range index).forM fun previous => do
      let (previousScope, previousField) ← requiredFieldAt parsed scratch previous
      rejectIf (previousScope = scope ∧ previousField.key = field.key) PskError.duplicateField

/-! ## None of this reports a full buffer -/

abbrev AvoidsFull {α : Type} (m : Except PskError α) : Prop := Avoids PskError.outputBufferTooSmall m

theorem avoids_capturedBounds (parsed : PsktParsed) (scratchLen : Nat) (region : UnknownRegion) :
    AvoidsFull (capturedBounds parsed scratchLen region) :=
  avoids_bind (avoids_rejectIf (by decide)) fun _ =>
    avoids_bind (avoids_rejectIf (by decide)) fun _ => avoids_ok _

theorem avoids_capturedKey (scratch : Bytes) (position stop : Nat) :
    AvoidsFull (capturedKey scratch position stop) :=
  avoids_bind (avoids_rejectIf (by decide)) fun _ =>
    avoids_bind (avoids_okOr (by decide) _) fun _ => avoids_ok _

theorem avoids_capturedValueStart (scratch : Bytes) (position stop : Nat) :
    AvoidsFull (capturedValueStart scratch position stop) :=
  avoids_bind (avoids_rejectIf (by decide)) fun _ =>
    avoids_bind (avoids_rejectIf (by decide)) fun _ => avoids_ok _

theorem avoids_capturedFieldAt (parsed : PsktParsed) (scratch : Bytes) (index : Nat) :
    AvoidsFull (capturedFieldAt parsed scratch index) :=
  avoids_ite (avoids_ok none) <|
    avoids_bind (avoids_okOr (by decide) _) fun region =>
    avoids_bind (avoids_capturedBounds parsed _ region) fun _ =>
    avoids_bind (avoids_capturedKey scratch _ _) fun _ =>
    avoids_bind (avoids_capturedValueStart scratch _ _) fun _ => avoids_ok _

theorem avoids_findCapturedFrom (parsed : PsktParsed) (scratch : Bytes) (scope : PsktUnknownScope)
    (name : Bytes) (indices : List Nat) :
    AvoidsFull (findCapturedFrom parsed scratch scope name indices) := by
  induction indices with
  | nil => exact avoids_ok none
  | cons index indices ih =>
    refine avoids_bind (avoids_capturedFieldAt parsed scratch index) fun found => ?_
    cases found with
    | none => exact ih
    | some captured => exact avoids_ite (avoids_ok _) ih

theorem avoids_findCapturedValue (parsed : PsktParsed) (scratch : Bytes) (scope : PsktUnknownScope)
    (name : Bytes) : AvoidsFull (findCapturedValue parsed scratch scope name) :=
  avoids_findCapturedFrom parsed scratch scope name _

theorem avoids_requiredFieldAt (parsed : PsktParsed) (scratch : Bytes) (index : Nat) :
    AvoidsFull (requiredFieldAt parsed scratch index) :=
  avoids_bind (avoids_capturedFieldAt parsed scratch index) fun found => avoids_okOr (by decide) found

theorem avoids_validatePreservationMetadata (parsed : PsktParsed) (scratch : Bytes)
    (numInputs numOutputs : Nat) :
    AvoidsFull (validatePreservationMetadata parsed scratch numInputs numOutputs) := by
  refine avoids_bind (avoids_rejectIf (by decide)) fun _ => avoids_forM _ fun index => ?_
  refine avoids_bind (avoids_requiredFieldAt parsed scratch index) fun _ =>
    avoids_bind (avoids_rejectIf (by decide)) fun _ => avoids_forM _ fun previous => ?_
  exact avoids_bind (avoids_requiredFieldAt parsed scratch previous) fun _ => avoids_rejectIf (by decide)

end KaspaPortal.Transaction.Pskt.Serializer
