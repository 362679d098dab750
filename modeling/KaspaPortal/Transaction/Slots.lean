import KaspaPortal.Transaction.Model

/-!
# All slots of a transaction

`src/transaction/model/transaction.rs` and `parse_reset.rs`, for what they do with the inputs that
are kept but not declared: these are the spare slots behind the inputs. A result of `none` is an
index out of range, which stops the program.
-/
namespace KaspaPortal.Transaction.Model
open Lib

def DEFAULT_INPUT_CAPACITY : Nat := 8

structure SlottedTransaction where
  tx : Transaction
  spare : List TransactionInput
  deriving DecidableEq

namespace SlottedTransaction

/-- The source's `inputs`, of which the first `num_inputs` are declared. -/
def slots (self : SlottedTransaction) : List TransactionInput := self.tx.inputs ++ self.spare

def tryNewWith (limits : TransactionLimits) : SlottedTransaction :=
  ⟨.new limits, List.replicate (min DEFAULT_INPUT_CAPACITY limits.maxInputs) .empty⟩

def clear (self : SlottedTransaction) : SlottedTransaction :=
  ⟨self.tx.clear, List.replicate self.slots.length .empty⟩

def ensureInputSlots (self : SlottedTransaction) (count : Nat) :
    Except TransactionStorageError Unit × SlottedTransaction :=
  if self.tx.limits.maxInputs < count then (.error .tooManyInputs, self)
  else
    (.ok (), { self with spare := self.spare ++ List.replicate (count - self.slots.length) .empty })

/-- The slots stay as they are, but none of them is declared. -/
def prepareForParse (self : SlottedTransaction) : SlottedTransaction :=
  ⟨self.tx.clear, self.slots⟩

def modifySlot (self : SlottedTransaction) (index : Nat) (f : TransactionInput → TransactionInput) :
    Option SlottedTransaction :=
  if index < self.tx.inputs.length then some { self with tx := self.tx.modifyInput index f }
  else if index < self.slots.length then
    some { self with spare := self.spare.modify (index - self.tx.inputs.length) f }
  else none

def redeemBytes (self : SlottedTransaction) (index : Nat) : Option Bytes := do
  let input ← self.slots[index]?
  if input.redeemScriptLen = 0 then return []
  else if input.redeemInPool then
    let off := input.redeemScriptOffset.toNat
    if off + input.redeemScriptLen ≤ REDEEM_POOL_SIZE then
      return cut self.tx.redeemPool.val off (off + input.redeemScriptLen)
    else none
  else if input.redeemScriptLen ≤ MAX_SCRIPT_SIZE then
    return input.redeemScript.val.take input.redeemScriptLen
  else none

def storeRedeem (self : SlottedTransaction) (index : Nat) (data : Bytes) :
    Option (Except TransactionStorageError Unit × SlottedTransaction) :=
  let len := data.length
  if len = 0 then
    (self.modifySlot index fun input =>
      { input with redeemScriptLen := 0, redeemInPool := false }).map (.ok (), ·)
  else if len ≤ MAX_SCRIPT_SIZE then
    (self.modifySlot index fun input =>
      { input with
        redeemScript := input.redeemScript.write 0 data
        redeemScriptLen := len
        redeemInPool := false }).map (.ok (), ·)
  else if MAX_REDEEM_SIZE < len then some (.error .redeemScriptTooLarge, self)
  else if REDEEM_POOL_SIZE < self.tx.redeemPoolUsed + len then some (.error .redeemPoolFull, self)
  else
    let off := self.tx.redeemPoolUsed
    let written := { self with
      tx := { self.tx with
        redeemPool := self.tx.redeemPool.write off data
        redeemPoolUsed := off + len } }
    (written.modifySlot index fun input =>
      { input with
        redeemScriptOffset := UInt16.ofNat off
        redeemScriptLen := len
        redeemInPool := true }).map (.ok (), ·)

/-- On a declared input this is what the model without spare slots does. -/
theorem storeRedeem_declared {self : SlottedTransaction} {index : Nat}
    (h : index < self.tx.inputs.length) (data : Bytes) :
    self.storeRedeem index data = some
      (match self.tx.storeRedeem index data with
      | .ok tx => (.ok (), { self with tx := tx })
      | .error error => (.error error, self)) := by
  have hmodify : ∀ (tx : Transaction) (f : TransactionInput → TransactionInput),
      tx.inputs = self.tx.inputs →
      (⟨tx, self.spare⟩ : SlottedTransaction).modifySlot index f =
        some ⟨tx.modifyInput index f, self.spare⟩ := by
    intro tx f htx
    exact if_pos (by rw [htx]; exact h)
  unfold storeRedeem Transaction.storeRedeem
  dsimp only
  split
  · exact congrArg (Option.map _) (hmodify self.tx _ rfl)
  · split
    · exact congrArg (Option.map _) (hmodify self.tx _ rfl)
    · split
      · rfl
      · split
        · rfl
        · exact (congrArg (Option.map _) (hmodify { self.tx with
            redeemPool := self.tx.redeemPool.write self.tx.redeemPoolUsed data
            redeemPoolUsed := self.tx.redeemPoolUsed + data.length } _ rfl)).trans rfl

end SlottedTransaction

end KaspaPortal.Transaction.Model
