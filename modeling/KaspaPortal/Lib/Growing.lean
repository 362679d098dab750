import KaspaPortal.Lib.Codec

/-!
# Writing into a buffer that grows

A writer into a fixed buffer is repeated with twice the capacity for as long as the buffer is too
small. That returns what a large buffer gives as soon as the writer meets its capacity before any
error that lies behind it and writes the same bytes into every buffer: it is then `Steady`.
-/
namespace KaspaPortal.Lib

variable {ε α β : Type} {full : ε}

/-! ## Computations without a certain error -/

/-- The computation does not fail with `full`. -/
def Avoids (full : ε) (m : Except ε α) : Prop := m ≠ .error full

theorem avoids_ok (a : α) : Avoids full (.ok a) := nofun

theorem avoids_error {error : ε} (h : error ≠ full) : Avoids full (.error error : Except ε α) := by
  intro hfull
  cases hfull
  exact h rfl

theorem avoids_rejectIf {bad : Prop} [Decidable bad] {error : ε} (h : error ≠ full) :
    Avoids full (rejectIf bad error : Except ε Unit) := by
  by_cases hbad : bad
  · rw [rejectIf_pos hbad]
    exact avoids_error h
  · rw [rejectIf_neg hbad]
    exact avoids_ok ()

theorem avoids_okOr {error : ε} (h : error ≠ full) (x : Option α) : Avoids full (okOr error x) := by
  cases x with
  | none => exact avoids_error h
  | some a => exact avoids_ok a

theorem avoids_bind {m : Except ε α} {f : α → Except ε β} (hm : Avoids full m)
    (hf : ∀ a, Avoids full (f a)) : Avoids full (m >>= f) := by
  cases m with
  | error error => exact avoids_error fun h => hm (by rw [h])
  | ok a => exact hf a

theorem avoids_forM {f : α → Except ε Unit} (items : List α) (h : ∀ a, Avoids full (f a)) :
    Avoids full (items.forM f) := by
  induction items with
  | nil => exact avoids_ok ()
  | cons a items ih => exact avoids_bind (h a) fun _ => ih

theorem avoids_ite {p : Prop} [Decidable p] {m m' : Except ε α} (h : Avoids full m)
    (h' : Avoids full m') : Avoids full (if p then m else m') := by
  by_cases hp : p
  · rw [if_pos hp]
    exact h
  · rw [if_neg hp]
    exact h'

theorem avoids_mapError {ε' : Type} {f : ε' → ε} {m : Except ε' α} (h : ∀ error, f error ≠ full) :
    Avoids full (m.mapError f) := by
  cases m with
  | error error => exact avoids_error (h error)
  | ok a => exact avoids_ok a

/-! ## Steady writers -/

/-- How a writer ends in a state: with a value there, or with an error. -/
def ending (st : Writer) : Except ε α → Except ε (α × Writer)
  | .ok a => .ok (a, st)
  | .error error => .error error

/-- A writer appends `w` and then ends with `stop`, in every buffer that `w` fits in, and reports
that the buffer is full in every other. -/
structure Emits (full : ε) (p : Writing ε α) (w : Bytes) (stop : Except ε α) : Prop where
  avoids : Avoids full stop
  run : ∀ st : Writer, st.out.length ≤ st.capacity → p st =
    if st.out.length + w.length ≤ st.capacity then ending { st with out := st.out ++ w } stop
    else .error full

/-- What a writer appends and how it ends do not depend on its buffer. -/
def Steady (full : ε) (p : Writing ε α) : Prop := ∃ w stop, Emits full p w stop

theorem steady_putBytes (value : Bytes) : Steady full (putBytes full value) :=
  ⟨value, .ok (), avoids_ok (), fun _ _ => rfl⟩

/-- A computation that writes nothing. -/
theorem steady_lift {m : Except ε α} (h : Avoids full m) :
    Steady full (StateT.lift m : Writing ε α) := by
  refine ⟨[], m, h, fun st hst => ?_⟩
  rw [List.append_nil, List.length_nil, Nat.add_zero, if_pos hst]
  cases m with
  | error error => rfl
  | ok a => rfl

theorem steady_pure (a : α) : Steady full (pure a : Writing ε α) := steady_lift (avoids_ok a)

theorem steady_throw {error : ε} (h : error ≠ full) : Steady full (throw error : Writing ε α) :=
  steady_lift (avoids_error h)

theorem steady_ite {c : Prop} [Decidable c] {p q : Writing ε α} (hp : Steady full p)
    (hq : Steady full q) : Steady full (if c then p else q) := by
  by_cases hc : c
  · rw [if_pos hc]
    exact hp
  · rw [if_neg hc]
    exact hq

theorem steady_rejectIf {bad : Prop} [Decidable bad] {error : ε} (h : error ≠ full) :
    Steady full (rejectIf bad error : Writing ε Unit) :=
  steady_ite (steady_throw h) (steady_pure ())

/-- The bytes of the two parts together fit where the bytes of the second fit after the first. -/
theorem steady_bind {p : Writing ε α} {f : α → Writing ε β} (hp : Steady full p)
    (hf : ∀ a, Steady full (f a)) : Steady full (p >>= f) := by
  obtain ⟨w, stop, hstop, hrun⟩ := hp
  cases stop with
  | error error =>
    refine ⟨w, .error error, avoids_error fun h => hstop (by rw [h]), fun st hst => ?_⟩
    have hbind : (p >>= f) st = (p st >>= fun r => f r.1 r.2) := rfl
    rw [hbind, hrun st hst]
    by_cases hfits : st.out.length + w.length ≤ st.capacity
    · rw [if_pos hfits, if_pos hfits]
      rfl
    · rw [if_neg hfits, if_neg hfits]
      rfl
  | ok a =>
    obtain ⟨w', stop', hstop', hrun'⟩ := hf a
    refine ⟨w ++ w', stop', hstop', fun st hst => ?_⟩
    have hbind : (p >>= f) st = (p st >>= fun r => f r.1 r.2) := rfl
    rw [hbind, hrun st hst, List.length_append, ← Nat.add_assoc]
    by_cases hfits : st.out.length + w.length ≤ st.capacity
    · have hlength : (st.out ++ w).length = st.out.length + w.length := List.length_append
      rw [if_pos hfits]
      have hnext := hrun' { st with out := st.out ++ w } (by rw [hlength]; exact hfits)
      rw [hlength, List.append_assoc] at hnext
      exact hnext
    · rw [if_neg hfits, if_neg (by omega)]
      rfl

/-- One writer after another. -/
theorem Steady.seq {p : Writing ε α} {q : Writing ε β} (hp : Steady full p) (hq : Steady full q) :
    Steady full (p >>= fun _ => q) := steady_bind hp fun _ => hq

theorem steady_forM {p : α → Writing ε Unit} (items : List α) (h : ∀ a, Steady full (p a)) :
    Steady full (items.forM p) := by
  induction items with
  | nil => exact steady_pure ()
  | cons a items ih => exact (h a).seq ih

/-! ## Fixed buffers -/

/-- What a writer leaves in an empty buffer of `capacity` bytes. -/
def written (p : Writing ε Unit) (capacity : Nat) : Except ε Bytes := do
  let ((), writer) ← p ⟨capacity, []⟩
  return writer.out

/-- A buffer of `size` bytes is large: every such buffer gives `result`, which is not that the
buffer is too small, and every smaller one is too small. -/
structure Fits (full : ε) (write : Nat → Except ε Bytes) (size : Nat) (result : Except ε Bytes) :
    Prop where
  large : ∀ capacity, size ≤ capacity → write capacity = result
  small : ∀ capacity, capacity < size → write capacity = .error full
  avoids : Avoids full result
  length : ∀ b, result = .ok b → b.length = size

theorem Steady.fits {p : Writing ε Unit} (h : Steady full p) :
    ∃ size result, Fits full (written p) size result := by
  obtain ⟨w, stop, hstop, hrun⟩ := h
  have hempty : ∀ capacity, p ⟨capacity, []⟩ =
      if w.length ≤ capacity then ending ⟨capacity, w⟩ stop else .error full := by
    intro capacity
    rw [hrun _ (Nat.zero_le _), List.length_nil, Nat.zero_add, List.nil_append]
  refine ⟨w.length, stop.map fun _ => w, ?_, ?_, ?_, ?_⟩
  · intro capacity hsize
    rw [written, hempty, if_pos hsize]
    cases stop with
    | error error => rfl
    | ok u => rfl
  · intro capacity hsize
    rw [written, hempty, if_neg (by omega)]
    rfl
  · cases stop with
    | error error => exact avoids_error fun h => hstop (by rw [h])
    | ok u => exact avoids_ok w
  · intro b hb
    obtain ⟨_, _, hw⟩ := map_eq_ok.mp hb
    rw [hw]

/-- A check before the writer. -/
theorem Fits.after {m : Except ε α} {write : α → Nat → Except ε Bytes} (hm : Avoids full m)
    (h : ∀ a, m = .ok a → ∃ size result, Fits full (write a) size result) :
    ∃ size result, Fits full (fun capacity => m >>= fun a => write a capacity) size result := by
  cases m with
  | error error =>
    exact ⟨0, .error error, fun _ _ => rfl, fun _ h => absurd h (Nat.not_lt_zero _),
      avoids_error fun h => hm (by rw [h]), nofun⟩
  | ok a => exact h a rfl

/-- Errors told in another type, where only a full buffer becomes a full buffer. -/
theorem Fits.mapError {ε' : Type} {full' : ε'} {f : ε → ε'} {write : Nat → Except ε Bytes}
    {size : Nat} {result : Except ε Bytes} (h : Fits full write size result)
    (hf : ∀ error, f error = full' ↔ error = full) :
    Fits full' (fun capacity => (write capacity).mapError f) size (result.mapError f) where
  large := fun capacity hsize => congrArg (Except.mapError f) (h.large capacity hsize)
  small := fun capacity hsize => by
    rw [h.small capacity hsize, mapError_error, (hf full).mpr rfl]
  avoids := by
    have hresult := h.avoids
    cases result with
    | error error => exact avoids_error fun herror => hresult (by rw [(hf error).mp herror])
    | ok b => exact avoids_ok b
  length := fun b hb => h.length b (mapError_eq_ok.mp hb)

/-! ## Growing buffers -/

/-- The targets, by the width of their `usize`. -/
inductive PointerWidth where
  | bits32 | bits64
  deriving DecidableEq, Repr

namespace PointerWidth

def usizeMax : PointerWidth → Nat
  | .bits32 => 2 ^ 32 - 1
  | .bits64 => 2 ^ 64 - 1

def saturatingAdd (width : PointerWidth) (a b : Nat) : Nat := min (a + b) width.usizeMax

def saturatingMul (width : PointerWidth) (a b : Nat) : Nat := min (a * b) width.usizeMax

theorem lt_usizeMax {n : Nat} (width : PointerWidth) (h : n < 2 ^ 32 - 1) : n < width.usizeMax := by
  cases width with
  | bits32 => exact h
  | bits64 => exact Nat.lt_trans h (by decide)

theorem saturatingAdd_le (width : PointerWidth) (a b : Nat) :
    width.saturatingAdd a b ≤ width.usizeMax := Nat.min_le_right _ _

theorem saturatingAdd_pos (width : PointerWidth) {a : Nat} (b : Nat) (h : 0 < a) :
    0 < width.saturatingAdd a b :=
  Nat.lt_min.mpr ⟨Nat.add_pos_left h b, width.lt_usizeMax (by decide)⟩

end PointerWidth

/-- Write into a buffer of twice the capacity until it is large enough, where a capacity is at
most `usizeMax`. -/
def grow [DecidableEq ε] (usizeMax : Nat) (full : ε) (write : Nat → Except ε Bytes)
    (capacity : Nat) (hpos : 0 < capacity) : Except ε Bytes :=
  match write capacity with
  | .ok b => .ok b
  | .error error =>
    if error ≠ full then .error error
    else if _h : capacity * 2 ≤ usizeMax then
      grow usizeMax full write (capacity * 2) (Nat.mul_pos hpos Nat.two_pos)
    else .error full
termination_by usizeMax - capacity
decreasing_by omega

section grow

variable [DecidableEq ε] {usizeMax size capacity : Nat} {write : Nat → Except ε Bytes}
  {result : Except ε Bytes} {hpos : 0 < capacity}

theorem grow_large (h : Fits full write size result) (hsize : size ≤ capacity) :
    grow usizeMax full write capacity hpos = result := by
  rw [grow, h.large capacity hsize]
  have hresult := h.avoids
  cases result with
  | ok b => rfl
  | error error => exact if_pos fun herror => hresult (by rw [herror])

theorem grow_small (h : Fits full write size result) (hsize : capacity < size) :
    grow usizeMax full write capacity hpos =
      if capacity * 2 ≤ usizeMax then
        grow usizeMax full write (capacity * 2) (Nat.mul_pos hpos Nat.two_pos)
      else .error full := by
  rw [grow, h.small capacity hsize]
  exact if_neg fun hfull => hfull rfl

/-- Some doubling of the capacity is large enough and within the limit. -/
theorem grow_eq_result (h : Fits full write size result) (k : Nat)
    (hsize : size ≤ capacity * 2 ^ k) (hmax : capacity * 2 ^ k ≤ usizeMax) :
    grow usizeMax full write capacity hpos = result := by
  induction k generalizing capacity with
  | zero => exact grow_large h (by simpa using hsize)
  | succ k ih =>
    rw [Nat.pow_succ', ← Nat.mul_assoc] at hsize hmax
    by_cases hlarge : size ≤ capacity
    · exact grow_large h hlarge
    · have hnext : capacity * 2 ≤ usizeMax := Nat.le_trans (Nat.le_mul_of_pos_right _ (Nat.two_pow_pos k)) hmax
      rw [grow_small h (Nat.lt_of_not_le hlarge), if_pos hnext]
      exact ih hsize hmax

/-- Every doubling of the capacity is too small or beyond the limit. -/
theorem grow_eq_full (h : Fits full write size result) (hcapacity : capacity ≤ usizeMax)
    (hnone : ∀ k, size ≤ capacity * 2 ^ k → usizeMax < capacity * 2 ^ k) :
    grow usizeMax full write capacity hpos = .error full := by
  induction hgap : usizeMax - capacity using Nat.strongRecOn generalizing capacity with
  | _ gap ih =>
    have hsmall : capacity < size := by
      by_contra hlarge
      have hmax := hnone 0 (by omega)
      omega
    rw [grow_small h hsmall]
    by_cases hnext : capacity * 2 ≤ usizeMax
    · rw [if_pos hnext]
      refine ih (usizeMax - capacity * 2) (by omega) hnext (fun k hk => ?_) rfl
      have hk' := hnone (k + 1)
      rw [Nat.pow_succ', ← Nat.mul_assoc] at hk'
      exact hk' hk
    · rw [if_neg hnext]

end grow

/-- What a serializer that starts from `initial` and grows its buffer returns: what the fixed-buffer
serializer gives for a large buffer, or that the buffer is too small, exactly where no doubling of
the first capacity that is large enough is a `usize`. -/
structure GrowsTo (width : PointerWidth) (full : ε) (initial : Nat) (write : Nat → Except ε Bytes)
    (size : Nat) (result grown : Except ε Bytes) : Prop extends Fits full write size result where
  enough : ∀ k, size ≤ initial * 2 ^ k → initial * 2 ^ k ≤ width.usizeMax → grown = result
  exhausted : (∀ k, size ≤ initial * 2 ^ k → width.usizeMax < initial * 2 ^ k) → grown = .error full
  exceeds : grown = .error full → width.usizeMax < 2 * size

/-- The first doubling that is large enough is less than twice as large as it has to be. -/
theorem exists_doubling {size initial : Nat} (hpos : 0 < initial) (hsize : initial < size) :
    ∃ k, size ≤ initial * 2 ^ k ∧ initial * 2 ^ k < 2 * size := by
  induction hgap : size - initial using Nat.strongRecOn generalizing initial with
  | _ gap ih =>
    by_cases hnext : size ≤ initial * 2
    · exact ⟨1, by omega, by omega⟩
    · obtain ⟨k, hlarge, hless⟩ := ih (size - initial * 2) (by omega) (by omega) (by omega) rfl
      refine ⟨k + 1, ?_, ?_⟩
      · rw [Nat.pow_succ', ← Nat.mul_assoc]
        exact hlarge
      · rw [Nat.pow_succ', ← Nat.mul_assoc]
        exact hless

theorem grow_growsTo [DecidableEq ε] (width : PointerWidth) {write : Nat → Except ε Bytes}
    {size initial : Nat} {result : Except ε Bytes} (hpos : 0 < initial)
    (hinitial : initial ≤ width.usizeMax) (h : Fits full write size result) :
    GrowsTo width full initial write size result (grow width.usizeMax full write initial hpos) where
  toFits := h
  enough := fun k => grow_eq_result h k
  exhausted := grow_eq_full h hinitial
  exceeds := by
    intro hgrown
    by_contra hroom
    have hresult : grow width.usizeMax full write initial hpos = result := by
      by_cases hlarge : size ≤ initial
      · exact grow_large h hlarge
      · obtain ⟨k, hk, hless⟩ := exists_doubling hpos (Nat.lt_of_not_le hlarge)
        exact grow_eq_result h k hk (by omega)
    exact h.avoids (hresult.symm.trans hgrown)

end KaspaPortal.Lib
