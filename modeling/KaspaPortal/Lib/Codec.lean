import KaspaPortal.Lib.Bytes
import KaspaPortal.Lib.Result

/-!
# Readers and bounded writers of byte strings

A reader consumes a prefix of its input and may update a state of its own on the
way; a writer appends to a buffer of fixed capacity. `Reads` and `Writes` say
exactly when such a computation succeeds, with the rest of the input and the
buffer arbitrary, so the two compose along a sequence. The rules for a sequence
state what is read next as `enc a ++ rest`, which is what a writer produces.
-/
namespace KaspaPortal.Lib

variable {σ ε α β : Type}

/-- Fail when something is wrong. -/
def rejectIf {m : Type → Type} [Monad m] [MonadExceptOf ε m] (bad : Prop) [Decidable bad]
    (error : ε) : m Unit :=
  if bad then throw error else pure ()

theorem rejectIf_eq_ok {bad : Prop} [Decidable bad] {error : ε} {u : Unit} :
    (rejectIf bad error : Except ε Unit) = .ok u ↔ ¬ bad := by
  unfold rejectIf
  by_cases h : bad
  · rw [if_pos h]
    exact ⟨nofun, fun hn => absurd h hn⟩
  · rw [if_neg h]
    exact ⟨fun _ => h, fun _ => rfl⟩

theorem rejectIf_pos {bad : Prop} [Decidable bad] {error : ε} (h : bad) :
    (rejectIf bad error : Except ε Unit) = .error error := if_pos h

theorem rejectIf_neg {bad : Prop} [Decidable bad] {error : ε} (h : ¬ bad) :
    (rejectIf bad error : Except ε Unit) = .ok () := if_neg h

/-! ## Readers -/

/-- A reader of the remaining bytes that also carries a state. -/
abbrev Parser (σ ε α : Type) := StateT (Bytes × σ) (Except ε) α

/-- `p` succeeds exactly on inputs that start with a string `R` allows, and
leaves the rest. -/
def Reads (p : Parser σ ε α) (R : σ → Bytes → α → σ → Prop) : Prop :=
  ∀ bs s a rest s', p (bs, s) = .ok (a, (rest, s')) ↔ ∃ w, bs = w ++ rest ∧ R s w a s'

/-- `p` reads `enc a` for the valid `a` and touches no state. -/
abbrev Decodes (p : Parser σ ε α) (enc : α → Bytes) (valid : α → Prop) : Prop :=
  Reads p fun s w a s' => valid a ∧ w = enc a ∧ s' = s

theorem Reads.congr {p : Parser σ ε α} {R Q : σ → Bytes → α → σ → Prop} (h : Reads p R)
    (hRQ : ∀ s w a s', R s w a s' ↔ Q s w a s') : Reads p Q := by
  intro bs s a rest s'
  rw [h]
  simp only [hRQ]

theorem reads_pure (a : α) :
    Reads (pure a : Parser σ ε α) fun s w b s' => w = [] ∧ b = a ∧ s' = s := by
  intro bs s b rest s'
  constructor
  · intro h
    cases h
    exact ⟨[], rfl, rfl, rfl, rfl⟩
  · intro ⟨w, hbs, hw, hb, hs⟩
    subst hbs hw hb hs
    rfl

theorem reads_bind {p : Parser σ ε α} {f : α → Parser σ ε β} {R : σ → Bytes → α → σ → Prop}
    {Q : α → σ → Bytes → β → σ → Prop} (hp : Reads p R) (hf : ∀ a, Reads (f a) (Q a)) :
    Reads (p >>= f) fun s w b s' =>
      ∃ a s₁ w₁ w₂, w = w₁ ++ w₂ ∧ R s w₁ a s₁ ∧ Q a s₁ w₂ b s' := by
  intro bs s b rest s'
  have hrun : (p >>= f) (bs, s) = (p (bs, s) >>= fun r => f r.1 r.2) := rfl
  rw [hrun, bind_eq_ok]
  constructor
  · intro ⟨⟨a, rest₁, s₁⟩, h₁, h₂⟩
    obtain ⟨w₁, hbs, hR⟩ := (hp ..).mp h₁
    obtain ⟨w₂, hrest, hQ⟩ := (hf a ..).mp h₂
    exact ⟨w₁ ++ w₂, by rw [hbs, hrest, List.append_assoc], a, s₁, w₁, w₂, rfl, hR, hQ⟩
  · intro ⟨w, hbs, a, s₁, w₁, w₂, hw, hR, hQ⟩
    refine ⟨(a, w₂ ++ rest, s₁), (hp ..).mpr ⟨w₁, ?_, hR⟩, (hf a ..).mpr ⟨w₂, rfl, hQ⟩⟩
    rw [hbs, hw, List.append_assoc]

/-- Reading a field and going on with its value. -/
theorem Decodes.bind {p : Parser σ ε α} {f : α → Parser σ ε β} {enc : α → Bytes}
    {valid : α → Prop} {Q : α → σ → Bytes → β → σ → Prop} (hp : Decodes p enc valid)
    (hf : ∀ a, Reads (f a) (Q a)) :
    Reads (p >>= f) fun s w b s' => ∃ a, valid a ∧ ∃ w', w = enc a ++ w' ∧ Q a s w' b s' := by
  refine (reads_bind hp hf).congr fun s w b s' => ?_
  constructor
  · intro ⟨a, s₁, w₁, w₂, hw, ⟨hv, henc, hs⟩, hQ⟩
    rw [hs] at hQ
    exact ⟨a, hv, w₂, by rw [hw, henc], hQ⟩
  · intro ⟨a, hv, w', hw, hQ⟩
    exact ⟨a, s, enc a, w', hw, ⟨hv, rfl, rfl⟩, hQ⟩

/-- A check that reads nothing. -/
theorem reads_rejectIf {bad : Prop} [Decidable bad] {error : ε} :
    Reads (rejectIf bad error : Parser σ ε Unit) fun s w _ s' => w = [] ∧ ¬ bad ∧ s' = s := by
  unfold rejectIf
  by_cases h : bad
  · rw [if_pos h]
    intro bs s a rest s'
    exact ⟨nofun, fun ⟨_, _, _, hn, _⟩ => absurd h hn⟩
  · rw [if_neg h]
    refine (reads_pure ()).congr fun s w a s' => ?_
    exact ⟨fun ⟨hw, _, hs⟩ => ⟨hw, h, hs⟩, fun ⟨hw, _, hs⟩ => ⟨hw, rfl, hs⟩⟩

/-- A check followed by the rest of the reader. -/
theorem reads_rejectIf_bind {bad : Prop} [Decidable bad] {error : ε} {f : Unit → Parser σ ε β}
    {Q : σ → Bytes → β → σ → Prop} (hf : Reads (f ()) Q) :
    Reads (rejectIf bad error >>= f) fun s w b s' => ¬ bad ∧ Q s w b s' := by
  refine (reads_bind reads_rejectIf fun _ => hf).congr fun s w b s' => ?_
  constructor
  · intro ⟨_, s₁, w₁, w₂, hw, ⟨hw₁, hb, hs⟩, hQ⟩
    rw [hs] at hQ
    rw [hw, hw₁]
    exact ⟨hb, hQ⟩
  · intro ⟨hb, hQ⟩
    exact ⟨(), s, [], w, rfl, ⟨rfl, hb, rfl⟩, hQ⟩

/-- Update the state, reading nothing. -/
def emit {ε' : Type} (inject : ε' → ε) (f : σ → Except ε' σ) : Parser σ ε Unit :=
  fun st => match f st.2 with
    | .ok s' => .ok ((), (st.1, s'))
    | .error e => .error (inject e)

theorem reads_emit {ε' : Type} {inject : ε' → ε} {f : σ → Except ε' σ} :
    Reads (emit inject f) fun s w _ s' => w = [] ∧ f s = .ok s' := by
  intro bs s a rest s'
  unfold emit
  simp only
  cases f s with
  | error e => exact ⟨nofun, fun ⟨_, _, _, h⟩ => by cases h⟩
  | ok s₁ =>
    constructor
    · intro h
      cases h
      exact ⟨[], rfl, rfl, rfl⟩
    · intro ⟨w, hbs, hw, h⟩
      subst hbs hw
      cases h
      rfl

/-- A string of a given length, as it stands. -/
def takeBytes (short : ε) (count : Nat) : Parser σ ε Bytes :=
  fun st => if count ≤ st.1.length then .ok (st.1.take count, (st.1.drop count, st.2))
    else .error short

theorem decodes_takeBytes {short : ε} {count : Nat} :
    Decodes (takeBytes (σ := σ) short count) id fun b => b.length = count := by
  intro bs s b rest s'
  unfold takeBytes
  split
  · rename_i h
    constructor
    · intro he
      obtain ⟨rfl, rfl, rfl⟩ : bs.take count = b ∧ bs.drop count = rest ∧ s = s' := by
        simpa using he
      exact ⟨bs.take count, (List.take_append_drop count bs).symm, by simpa using h, rfl, rfl⟩
    · intro ⟨w, hbs, hlen, hw, hs⟩
      subst hbs hw hs hlen
      simp
  · rename_i h
    refine ⟨nofun, fun ⟨w, hbs, hlen, hw, _⟩ => absurd ?_ h⟩
    subst hbs hw hlen
    simp

/-- A string of a given length, as an array. -/
def takeArray (short : ε) (n : Nat) : Parser σ ε (FixedBytes n) := do
  let b ← takeBytes short n
  if h : b.length = n then pure ⟨b, h⟩ else throw short

theorem decodes_takeArray {short : ε} {n : Nat} :
    Decodes (takeArray (σ := σ) short n) Subtype.val fun _ => True := by
  have hf : ∀ b : Bytes, Reads (if h : b.length = n then pure ⟨b, h⟩ else throw short :
      Parser σ ε (FixedBytes n)) fun s w a s' => w = [] ∧ b = a.val ∧ s' = s := by
    intro b
    by_cases h : b.length = n
    · rw [dif_pos h]
      refine (reads_pure _).congr fun s w a s' => ?_
      exact ⟨fun ⟨hw, ha, hs⟩ => ⟨hw, by rw [ha], hs⟩, fun ⟨hw, ha, hs⟩ => ⟨hw, Subtype.ext ha.symm, hs⟩⟩
    · rw [dif_neg h]
      intro bs s a rest s'
      exact ⟨nofun, fun ⟨_, _, _, hb, _⟩ => absurd (hb ▸ a.property) h⟩
  refine (decodes_takeBytes.bind hf).congr fun s w a s' => ?_
  constructor
  · intro ⟨b, _, w', hw, hw', hb, hs⟩
    exact ⟨trivial, by rw [hw, hw', hb]; simp, hs⟩
  · intro ⟨_, hw, hs⟩
    exact ⟨a.val, a.property, [], by rw [hw]; simp, rfl, rfl, hs⟩

/-- Run a reader a number of times. -/
def readEach (step : Parser σ ε Unit) : Nat → Parser σ ε Unit
  | 0 => pure ()
  | count + 1 => do
    step
    readEach step count

/-- A reader that hands one valid item to the state, repeated, hands over a list of them. -/
theorem reads_readEach {ε' : Type} {step : Parser σ ε Unit} {valid : α → Prop} {enc : α → Bytes}
    {hand : α → σ → Except ε' σ} (count : Nat)
    (hstep : Reads step fun s w _ s' => ∃ a, valid a ∧ w = enc a ∧ hand a s = .ok s') :
    Reads (readEach step count) fun s w _ s' => ∃ items : List α, items.length = count ∧
      (∀ a ∈ items, valid a) ∧ w = items.flatMap enc ∧
      items.foldlM (fun s a => hand a s) s = .ok s' := by
  induction count with
  | zero =>
    refine (reads_pure ()).congr fun s w u s' => ?_
    constructor
    · intro ⟨hw, _, hs⟩
      exact ⟨[], rfl, by simp, hw, by rw [hs]; rfl⟩
    · intro ⟨items, hlen, _, hw, hs⟩
      rw [List.length_eq_zero_iff] at hlen
      subst hlen
      exact ⟨hw, rfl, (Except.ok.inj hs).symm⟩
  | succ count ih =>
    refine (reads_bind hstep fun _ => ih).congr fun s w u s' => ?_
    constructor
    · intro ⟨_, s₁, w₁, w₂, hw, ⟨a, ha, hw₁, hhand⟩, items, hlen, hvalid, hw₂, hitems⟩
      refine ⟨a :: items, by rw [List.length_cons, hlen], List.forall_mem_cons.mpr ⟨ha, hvalid⟩,
        by rw [hw, hw₁, hw₂, List.flatMap_cons], ?_⟩
      rw [List.foldlM_cons, bind_eq_ok]
      exact ⟨s₁, hhand, hitems⟩
    · intro ⟨items, hlen, hvalid, hw, hitems⟩
      cases items with
      | nil => cases hlen
      | cons a items =>
        rw [List.foldlM_cons, bind_eq_ok] at hitems
        obtain ⟨s₁, hhand, hitems⟩ := hitems
        obtain ⟨ha, hvalid⟩ := List.forall_mem_cons.mp hvalid
        exact ⟨(), s₁, enc a, items.flatMap enc, by rw [hw, List.flatMap_cons],
          ⟨a, ha, rfl, hhand⟩, items, Nat.succ.inj hlen, hvalid, rfl, hitems⟩

/-! ## Readers to the end of the input -/

/-- `p` succeeds exactly on the inputs `R` allows, and leaves nothing. -/
def ReadsAll (p : Parser σ ε α) (R : σ → Bytes → α → σ → Prop) : Prop :=
  ∀ bs s a rest s', p (bs, s) = .ok (a, (rest, s')) ↔ rest = [] ∧ R s bs a s'

theorem ReadsAll.congr {p : Parser σ ε α} {R Q : σ → Bytes → α → σ → Prop} (h : ReadsAll p R)
    (hRQ : ∀ s w a s', R s w a s' ↔ Q s w a s') : ReadsAll p Q := by
  intro bs s a rest s'
  rw [h, hRQ]

theorem reads_bindAll {p : Parser σ ε α} {f : α → Parser σ ε β} {R : σ → Bytes → α → σ → Prop}
    {Q : α → σ → Bytes → β → σ → Prop} (hp : Reads p R) (hf : ∀ a, ReadsAll (f a) (Q a)) :
    ReadsAll (p >>= f) fun s w b s' =>
      ∃ a s₁ w₁ w₂, w = w₁ ++ w₂ ∧ R s w₁ a s₁ ∧ Q a s₁ w₂ b s' := by
  intro bs s b rest s'
  have hrun : (p >>= f) (bs, s) = (p (bs, s) >>= fun r => f r.1 r.2) := rfl
  rw [hrun, bind_eq_ok]
  constructor
  · intro ⟨⟨a, rest₁, s₁⟩, h₁, h₂⟩
    obtain ⟨w₁, hbs, hR⟩ := (hp ..).mp h₁
    obtain ⟨hrest, hQ⟩ := (hf a ..).mp h₂
    exact ⟨hrest, a, s₁, w₁, rest₁, hbs, hR, hQ⟩
  · intro ⟨hrest, a, s₁, w₁, w₂, hbs, hR, hQ⟩
    exact ⟨(a, w₂, s₁), (hp ..).mpr ⟨w₁, hbs, hR⟩, (hf a ..).mpr ⟨hrest, hQ⟩⟩

/-- What follows a reader of the whole input has nothing left to read. -/
theorem readsAll_bind {p : Parser σ ε α} {f : α → Parser σ ε β} {R : σ → Bytes → α → σ → Prop}
    {Q : α → σ → Bytes → β → σ → Prop} (hp : ReadsAll p R) (hf : ∀ a, Reads (f a) (Q a)) :
    ReadsAll (p >>= f) fun s w b s' => ∃ a s₁, R s w a s₁ ∧ Q a s₁ [] b s' := by
  intro bs s b rest s'
  have hrun : (p >>= f) (bs, s) = (p (bs, s) >>= fun r => f r.1 r.2) := rfl
  rw [hrun, bind_eq_ok]
  constructor
  · intro ⟨⟨a, rest₁, s₁⟩, h₁, h₂⟩
    obtain ⟨hrest₁, hR⟩ := (hp ..).mp h₁
    obtain ⟨w, hw, hQ⟩ := (hf a ..).mp h₂
    obtain ⟨hw, hrest⟩ := List.append_eq_nil_iff.mp (hrest₁ ▸ hw).symm
    rw [hw] at hQ
    exact ⟨hrest, a, s₁, hR, hQ⟩
  · intro ⟨hrest, a, s₁, hR, hQ⟩
    exact ⟨(a, [], s₁), (hp ..).mpr ⟨rfl, hR⟩, (hf a ..).mpr ⟨[], by rw [hrest]; rfl, hQ⟩⟩

/-- How many bytes are left. -/
def bytesLeft : Parser σ ε Nat := fun st => .ok (st.1.length, st)

/-- A reader that first checks how much is left, where all it accepts is long enough. -/
theorem readsAll_room {f : Nat → Parser σ ε Unit} {p : Unit → Parser σ ε β} (least : Nat)
    {Q : σ → Bytes → β → σ → Prop}
    (hf : ∀ n, Reads (f n) fun s w _ s' => w = [] ∧ least ≤ n ∧ s' = s) (hp : ReadsAll (p ()) Q)
    (hroom : ∀ s w b s', Q s w b s' → least ≤ w.length) :
    ReadsAll (bytesLeft >>= f >>= p) Q := by
  intro bs s b rest s'
  have hrun : (bytesLeft >>= f >>= p) (bs, s) = (f bs.length (bs, s) >>= fun r => p r.1 r.2) := rfl
  rw [hrun, bind_eq_ok]
  constructor
  · intro ⟨⟨_, rest₁, s₁⟩, h₁, h₂⟩
    obtain ⟨w, hbs, hw, _, hs⟩ := (hf bs.length ..).mp h₁
    have hrest : rest₁ = bs := by rw [hbs, hw, List.nil_append]
    rw [hrest, hs] at h₂
    exact (hp ..).mp h₂
  · intro h
    have hleast := hroom _ _ _ _ h.2
    exact ⟨((), bs, s), (hf bs.length ..).mpr ⟨[], rfl, rfl, hleast, rfl⟩, (hp ..).mpr h⟩

/-! ## Bounded writers -/

structure Writer where
  capacity : Nat
  out : Bytes

abbrev Writing (ε α : Type) := StateT Writer (Except ε) α

/-- Append a string if it fits. -/
def putBytes (full : ε) (value : Bytes) : Writing ε Unit := fun w =>
  if w.out.length + value.length ≤ w.capacity then .ok ((), { w with out := w.out ++ value })
  else .error full

/-- `p` appends `w` when `valid` holds and the buffer has room, and fails otherwise. -/
def Writes (p : Writing ε Unit) (valid : Prop) (w : Bytes) : Prop :=
  ∀ st st' : Writer, st.out.length ≤ st.capacity → (p st = .ok ((), st') ↔
    valid ∧ st' = { st with out := st.out ++ w } ∧ st.out.length + w.length ≤ st.capacity)

theorem writes_putBytes {full : ε} {value : Bytes} : Writes (putBytes full value) True value := by
  intro st st' _
  unfold putBytes
  split
  · rename_i h
    exact ⟨fun he => by cases he; exact ⟨trivial, rfl, h⟩, fun ⟨_, hs, _⟩ => by rw [hs]⟩
  · rename_i h
    exact ⟨nofun, fun ⟨_, _, hc⟩ => absurd hc h⟩

theorem writes_pure : Writes (pure () : Writing ε Unit) True [] := by
  intro st st' h
  constructor
  · intro he
    cases he
    exact ⟨trivial, by simp, by simpa using h⟩
  · intro ⟨_, hs, _⟩
    subst hs
    simp only [List.append_nil]
    rfl

theorem writes_rejectIf {bad : Prop} [Decidable bad] {error : ε} :
    Writes (rejectIf bad error : Writing ε Unit) (¬ bad) [] := by
  unfold rejectIf
  by_cases h : bad
  · rw [if_pos h]
    intro st st' _
    exact ⟨nofun, fun ⟨hn, _⟩ => absurd h hn⟩
  · rw [if_neg h]
    intro st st' hst
    rw [writes_pure st st' hst]
    exact ⟨fun ⟨_, hs⟩ => ⟨h, hs⟩, fun ⟨_, hs⟩ => ⟨trivial, hs⟩⟩

theorem writes_bind {p : Writing ε Unit} {f : Unit → Writing ε Unit} {v₁ v₂ : Prop} {w₁ w₂ : Bytes}
    (hp : Writes p v₁ w₁) (hf : Writes (f ()) v₂ w₂) :
    Writes (p >>= f) (v₁ ∧ v₂) (w₁ ++ w₂) := by
  intro st st' hst
  have hrun : (p >>= f) st = (p st >>= fun r => f r.1 r.2) := rfl
  rw [hrun, bind_eq_ok]
  constructor
  · intro ⟨⟨_, st₁⟩, h₁, h₂⟩
    obtain ⟨hv₁, rfl, hc₁⟩ := (hp _ _ hst).mp h₁
    obtain ⟨hv₂, rfl, hc₂⟩ := (hf _ _ (by simpa using hc₁)).mp h₂
    refine ⟨⟨hv₁, hv₂⟩, by simp [List.append_assoc], ?_⟩
    simp only [List.length_append] at hc₂ ⊢
    omega
  · intro ⟨⟨hv₁, hv₂⟩, hs, hc⟩
    simp only [List.length_append] at hc
    have hc₁ : st.out.length + w₁.length ≤ st.capacity := by omega
    refine ⟨((), { st with out := st.out ++ w₁ }), (hp _ _ hst).mpr ⟨hv₁, rfl, hc₁⟩, ?_⟩
    refine (hf _ _ (by simpa using hc₁)).mpr ⟨hv₂, by rw [hs]; simp [List.append_assoc], ?_⟩
    simp only [List.length_append]
    omega

theorem Writes.congr {p : Writing ε Unit} {v v' : Prop} {w w' : Bytes} (h : Writes p v w)
    (hv : v ↔ v') (hw : v → w = w') : Writes p v' w' := by
  intro st st' hst
  rw [h st st' hst, ← hv]
  constructor
  · intro ⟨hvalid, hs⟩
    rw [hw hvalid] at hs
    exact ⟨hvalid, hs⟩
  · intro ⟨hvalid, hs⟩
    rw [← hw hvalid] at hs
    exact ⟨hvalid, hs⟩

/-- A writer run once for each item of a list. -/
theorem writes_forM {p : α → Writing ε Unit} {valid : α → Prop} {enc : α → Bytes} (items : List α)
    (h : ∀ a ∈ items, Writes (p a) (valid a) (enc a)) :
    Writes (items.forM p) (∀ a ∈ items, valid a) (items.flatMap enc) := by
  induction items with
  | nil => exact writes_pure.congr (by simp) fun _ => rfl
  | cons a items ih =>
    have ha := h a (by simp)
    have hrest := ih fun b hb => h b (by simp [hb])
    refine (writes_bind ha hrest).congr (by simp) fun _ => by simp

end KaspaPortal.Lib
