import KaspaPortal.Lib.Bytes

/-!
# One block of PBKDF2

The key is the exclusive or of a chain of keyed hashes. A run over the chain keeps the last hash and
the key so far, and can be stopped and resumed anywhere.
-/
namespace KaspaPortal.Lib

section pbkdf2
variable {n : Nat}

def xorBytes (a b : FixedBytes n) : FixedBytes n :=
  ⟨List.zipWith (· ^^^ ·) a.val b.val, by rw [List.length_zipWith, a.property, b.property, Nat.min_self]⟩

variable (prf : Bytes → Bytes → FixedBytes n) (password salt : Bytes)

/-- The `j + 1`-th hash of the chain: of the salt with the number of the block, then of the one
before. -/
def pbkdf2Hash : Nat → FixedBytes n
  | 0 => prf password (salt ++ [0, 0, 0, 1])
  | j + 1 => prf password (pbkdf2Hash j).val

/-- The key after `j + 1` rounds. -/
def pbkdf2Key : Nat → FixedBytes n
  | 0 => pbkdf2Hash prf password salt 0
  | j + 1 => xorBytes (pbkdf2Key j) (pbkdf2Hash prf password salt (j + 1))

/-- `pbkdf2`: the first block of the key derived in so many rounds. -/
def pbkdf2 (rounds : Nat) : FixedBytes n := pbkdf2Key prf password salt (rounds - 1)

/-- One more round of a run that keeps the last hash and the key. -/
def pbkdf2Round (run : FixedBytes n × FixedBytes n) : FixedBytes n × FixedBytes n :=
  let next := prf password run.1.val
  (next, xorBytes run.2 next)

/-- Resuming a run goes on along the chain. -/
theorem pbkdf2Round_iterate (j more : Nat) :
    (pbkdf2Round prf password)^[more] (pbkdf2Hash prf password salt j, pbkdf2Key prf password salt j) =
      (pbkdf2Hash prf password salt (j + more), pbkdf2Key prf password salt (j + more)) := by
  induction more generalizing j with
  | zero => rfl
  | succ more ih =>
    have hround : pbkdf2Round prf password
        (pbkdf2Hash prf password salt j, pbkdf2Key prf password salt j) =
          (pbkdf2Hash prf password salt (j + 1), pbkdf2Key prf password salt (j + 1)) := rfl
    rw [Function.iterate_succ_apply, hround, ih, Nat.add_right_comm, Nat.add_assoc]

end pbkdf2

end KaspaPortal.Lib
