import Mathlib.Algebra.Order.Ring.Nat
import Mathlib.Data.List.Basic

/-!
# Complete binary trees of digests

A level of nodes is folded pairwise up to a single root. Nodes and the way two
of them combine are parameters. `mem_of_climbs` is the binding fact a verifier
needs: whatever steps lead from a node to the root, if each step can only reach
a node of the tree from one of that node's children, the walk started at a leaf
of the tree. Nothing is assumed about how the steps were chosen.
-/
namespace KaspaPortal.Lib
variable {H : Type} (combine : H → H → H)

/-- Adjacent nodes of a level, in order. -/
def siblingPairs : List H → List (H × H)
  | a :: b :: rest => (a, b) :: siblingPairs rest
  | _ => []

def nextLevel (level : List H) : List H :=
  (siblingPairs level).map fun p => combine p.1 p.2

/-- `rounds` levels up. -/
def ascend : Nat → List H → List H
  | 0, level => level
  | rounds + 1, level => ascend rounds (nextLevel combine level)

/-- Every pair combined on the way up. -/
def combinedPairs : Nat → List H → List (H × H)
  | 0, _ => []
  | rounds + 1, level => siblingPairs level ++ combinedPairs rounds (nextLevel combine level)

theorem siblingPairs_length : ∀ (n : Nat) (level : List H), level.length = 2 * n →
    (siblingPairs level).length = n
  | 0, [], _ => rfl
  | n + 1, a :: b :: rest, h => by
    simp only [siblingPairs, List.length_cons] at h ⊢
    rw [siblingPairs_length n rest (by omega)]

theorem nextLevel_length {n : Nat} {level : List H} (h : level.length = 2 * n) :
    (nextLevel combine level).length = n := by
  rw [nextLevel, List.length_map, siblingPairs_length n level h]

theorem ascend_length (rounds : Nat) (level : List H) (h : level.length = 2 ^ rounds) :
    (ascend combine rounds level).length = 1 := by
  induction rounds generalizing level with
  | zero => simpa [ascend] using h
  | succ rounds ih =>
    apply ih
    apply nextLevel_length
    rw [h, Nat.pow_succ, Nat.mul_comm]

theorem mem_of_siblingPairs {a b : H} : ∀ {level : List H}, (a, b) ∈ siblingPairs level →
    a ∈ level ∧ b ∈ level
  | x :: y :: rest, h => by
    simp only [siblingPairs, List.mem_cons, Prod.mk.injEq] at h
    rcases h with ⟨rfl, rfl⟩ | h
    · simp
    · have := mem_of_siblingPairs h
      simp [this.1, this.2]

theorem getElem?_siblingPairs {a b : H} : ∀ {level : List H} {i : Nat},
    level[2 * i]? = some a → level[2 * i + 1]? = some b → (siblingPairs level)[i]? = some (a, b)
  | [], _, ha, _ => by simp at ha
  | [_], i, _, hb => by simp at hb
  | x :: y :: rest, 0, ha, hb => by simp_all [siblingPairs]
  | x :: y :: rest, i + 1, ha, hb => by
    have hsplit : 2 * (i + 1) = 2 * i + 2 := by omega
    rw [hsplit] at ha hb
    change rest[2 * i]? = some a at ha
    change rest[2 * i + 1]? = some b at hb
    have hrest : (siblingPairs rest)[i]? = some (a, b) := getElem?_siblingPairs ha hb
    exact hrest

/-- A node and its sibling are combined at half their index. -/
theorem getElem?_nextLevel {level : List H} {i : Nat} {a b : H} (ha : level[2 * i]? = some a)
    (hb : level[2 * i + 1]? = some b) : (nextLevel combine level)[i]? = some (combine a b) := by
  rw [nextLevel, List.getElem?_map, getElem?_siblingPairs ha hb]
  rfl

/-- `Climbs step n x y`: `n` steps lead from `x` to `y`. -/
inductive Climbs (step : H → H → Prop) : Nat → H → H → Prop
  | here (x : H) : Climbs step 0 x x
  | up {n : Nat} {x y z : H} (hstep : step x y) (h : Climbs step n y z) : Climbs step (n + 1) x z

theorem mem_of_climbs {step : H → H → Prop} {rounds : Nat} {level : List H} {x root : H}
    (hlevel : level.length = 2 ^ rounds)
    (hbind : ∀ a b, (a, b) ∈ combinedPairs combine rounds level →
      ∀ y, step y (combine a b) → y = a ∨ y = b)
    (hroot : ascend combine rounds level = [root]) (h : Climbs step rounds x root) : x ∈ level := by
  induction rounds generalizing level x with
  | zero =>
    cases h
    simp only [ascend] at hroot
    simp [hroot]
  | succ rounds ih =>
    cases h with
    | @up _ _ y _ hstep h =>
      have hlen : (nextLevel combine level).length = 2 ^ rounds :=
        nextLevel_length combine (by rw [hlevel, Nat.pow_succ, Nat.mul_comm])
      have hy : y ∈ nextLevel combine level :=
        ih hlen (fun a b hab => hbind a b (List.mem_append_right _ hab)) hroot h
      obtain ⟨⟨a, b⟩, hab, rfl⟩ := List.mem_map.mp hy
      have hmem := mem_of_siblingPairs hab
      rcases hbind a b (List.mem_append_left _ hab) x hstep with rfl | rfl
      · exact hmem.1
      · exact hmem.2

end KaspaPortal.Lib
