import Mathlib.Data.Finmap
import Mathlib.Data.List.Nodup

/-!
# Maps whose keys are also queued in order of arrival

A bounded store keeps its records in a map and their keys in a queue, oldest first,
and drops from the front of the queue. What ties the two, and what each operation
does to the records in queue order.
-/
namespace KaspaPortal.Lib

variable {κ β σ : Type}

/-! ## Bounded queues -/

/-- The last `cap` items. -/
def keepLast (cap : Nat) (l : List β) : List β := l.drop (l.length - cap)

/-- The items in front of the last `cap`. -/
def pastLast (cap : Nat) (l : List β) : List β := l.take (l.length - cap)

theorem pastLast_append_keepLast (cap : Nat) (l : List β) :
    pastLast cap l ++ keepLast cap l = l := List.take_append_drop _ l

theorem length_keepLast (cap : Nat) (l : List β) : (keepLast cap l).length ≤ cap := by
  rw [keepLast, List.length_drop]
  omega

theorem keepLast_of_le {cap : Nat} {l : List β} (h : l.length ≤ cap) : keepLast cap l = l := by
  rw [keepLast, Nat.sub_eq_zero_of_le h, List.drop_zero]

theorem pastLast_of_le {cap : Nat} {l : List β} (h : l.length ≤ cap) : pastLast cap l = [] := by
  rw [pastLast, Nat.sub_eq_zero_of_le h, List.take_zero]

theorem keepLast_sublist (cap : Nat) (l : List β) : (keepLast cap l).Sublist l :=
  List.drop_sublist _ _

/-- What comes later pushes out what came before. -/
theorem keepLast_append (cap : Nat) (l later : List β) :
    keepLast cap (l ++ later) = keepLast (cap - later.length) l ++ keepLast cap later := by
  rw [keepLast, keepLast, keepLast, List.drop_append, List.length_append]
  have hlater : l.length + later.length - cap - l.length = later.length - cap := by omega
  rw [hlater]
  rcases Nat.le_total later.length cap with hle | hle
  · have hfront : l.length + later.length - cap = l.length - (cap - later.length) := by omega
    rw [hfront]
  · have hnone : l.length - (cap - later.length) = l.length := by omega
    rw [hnone, List.drop_length, List.drop_eq_nil_of_le (by omega)]

theorem map_keepLast {α : Type} (f : α → β) (cap : Nat) (l : List α) :
    (keepLast cap l).map f = keepLast cap (l.map f) := by
  rw [keepLast, keepLast, List.map_drop, List.length_map]

/-- The item that came last stays. -/
theorem mem_keepLast_concat {cap : Nat} (hcap : 0 < cap) (l : List β) (v : β) :
    v ∈ keepLast cap (l ++ [v]) := by
  rw [keepLast, List.length_append, List.length_singleton, List.drop_append_of_le_length (by omega)]
  exact List.mem_append_right _ List.mem_cons_self

theorem keepLast_keepLast {count cap : Nat} (h : count ≤ cap) (l : List β) :
    keepLast count (keepLast cap l) = keepLast count l := by
  rw [keepLast, keepLast, keepLast, List.drop_drop, List.length_drop]
  congr 1
  omega

/-- What an earlier cut drops would be dropped anyway. -/
theorem keepLast_keepLast_append (cap : Nat) (l later : List β) :
    keepLast cap (keepLast cap l ++ later) = keepLast cap (l ++ later) := by
  rw [keepLast_append, keepLast_append, keepLast_keepLast (Nat.sub_le _ _)]

/-- A queue loses its front for as long as the state is over its limit. -/
def drainWhile (excess : List κ → σ → Bool) (drop : κ → σ → σ) : List κ → σ → List κ × σ
  | [], s => ([], s)
  | k :: rest, s =>
    if excess (k :: rest) s then drainWhile excess drop rest (drop k s) else (k :: rest, s)

/-- When the limit is one on the length of the queue, its last items stay. -/
theorem drainWhile_eq {excess : List κ → σ → Bool} {drop : κ → σ → σ} (cap : Nat)
    (tied : List κ → σ → Prop)
    (hdrop : ∀ k rest s, tied (k :: rest) s → tied rest (drop k s))
    (hover : ∀ queue s, tied queue s → excess queue s = decide (cap < queue.length)) :
    ∀ queue s, tied queue s → drainWhile excess drop queue s =
      (keepLast cap queue, (pastLast cap queue).foldl (fun s k => drop k s) s) := by
  intro queue
  induction queue with
  | nil =>
    intro s _
    simp [drainWhile, keepLast, pastLast]
  | cons k rest ih =>
    intro s hs
    rw [drainWhile, hover _ _ hs]
    by_cases hlen : cap < (k :: rest).length
    · have hsub : (k :: rest).length - cap = rest.length - cap + 1 := by
        rw [List.length_cons] at hlen ⊢
        omega
      rw [decide_eq_true hlen, if_pos rfl, ih _ (hdrop k rest s hs), keepLast, keepLast, pastLast,
        pastLast, hsub, List.drop_succ_cons, List.take_succ_cons, List.foldl_cons]
    · rw [decide_eq_false hlen, if_neg Bool.false_ne_true, keepLast_of_le (Nat.le_of_not_lt hlen),
        pastLast_of_le (Nat.le_of_not_lt hlen)]
      rfl

theorem drainWhile_of_within {excess : List κ → σ → Bool} {drop : κ → σ → σ} {queue : List κ} {s : σ}
    (h : excess queue s = false) : drainWhile excess drop queue s = (queue, s) := by
  cases queue with
  | nil => rfl
  | cons k rest => rw [drainWhile, h, if_neg Bool.false_ne_true]

/-- What each drop keeps holds when the draining ends. -/
theorem drainWhile_keeps (excess : List κ → σ → Bool) (drop : κ → σ → σ)
    (tied : List κ → σ → Prop)
    (hdrop : ∀ k rest s, tied (k :: rest) s → excess (k :: rest) s = true → tied rest (drop k s)) :
    ∀ queue s, tied queue s →
      tied (drainWhile excess drop queue s).1 (drainWhile excess drop queue s).2 := by
  intro queue
  induction queue with
  | nil =>
    intro s hs
    exact hs
  | cons k rest ih =>
    intro s hs
    rw [drainWhile]
    split
    case isTrue hover => exact ih _ (hdrop k rest s hs hover)
    case isFalse => exact hs

/-- The draining ends within the limit, or with nothing left. -/
theorem drainWhile_stops (excess : List κ → σ → Bool) (drop : κ → σ → σ) (queue : List κ) (s : σ) :
    (drainWhile excess drop queue s).1 = [] ∨
      excess (drainWhile excess drop queue s).1 (drainWhile excess drop queue s).2 = false := by
  induction queue generalizing s with
  | nil => exact .inl rfl
  | cons k rest ih =>
    rw [drainWhile]
    split
    case isTrue => exact ih _
    case isFalse hwithin => exact .inr (Bool.eq_false_iff.mpr hwithin)

/-- Dropping the front while it meets a condition drops all that meets it exactly when nothing that
meets it stands behind something that does not. -/
theorem forall_dropWhile_iff {p : β → Bool} {l : List β} :
    (∀ a ∈ l.dropWhile p, p a = false) ↔ l.Pairwise fun a b => p b = true → p a = true := by
  induction l with
  | nil => simp
  | cons a l ih =>
    rw [List.dropWhile_cons, List.pairwise_cons]
    split
    case isTrue ha => rw [ih, and_iff_right fun _ _ _ => ha]
    case isFalse ha =>
      rw [List.forall_mem_cons, and_iff_right (Bool.eq_false_iff.mpr ha)]
      constructor
      · intro hall
        refine ⟨fun b hb hpb => absurd hpb (Bool.eq_false_iff.mp (hall b hb)), ?_⟩
        exact List.pairwise_of_forall_mem_list fun _ _ b hb hpb =>
          absurd hpb (Bool.eq_false_iff.mp (hall b hb))
      · intro h b hb
        exact Bool.eq_false_iff.mpr fun hpb => ha (h.1 b hb hpb)

/-! ## Keyed maps and their queues -/

variable [DecidableEq κ]

/-- A key enters a queue of at most `cap` keys, unless it is there already. -/
def pushKey (cap : Nat) (keys : List κ) (k : κ) : List κ :=
  if k ∈ keys then keys else keepLast cap (keys ++ [k])

abbrev KeyedMap (κ β : Type) := Finmap fun _ : κ => β

namespace KeyedMap

/-- How many records the map holds. -/
def len (m : KeyedMap κ β) : Nat := m.keys.card

/-- The records that pass a test. -/
def retain (p : κ → β → Bool) (m : KeyedMap κ β) : KeyedMap κ β where
  entries := m.entries.filter fun e => p e.1 e.2
  nodupKeys := Multiset.nodup_keys.mp
    (Multiset.nodup_of_le (Multiset.map_le_map (Multiset.filter_le _ _)) m.nodupKeys.nodup_keys)

theorem lookup_eq_some {m : KeyedMap κ β} {k : κ} {v : β} :
    m.lookup k = some v ↔ (⟨k, v⟩ : Sigma fun _ : κ => β) ∈ m.entries := by
  induction m using Finmap.induction_on with
  | H a => exact List.mem_dlookup_iff a.nodupKeys

theorem lookup_retain {p : κ → β → Bool} {m : KeyedMap κ β} {k : κ} {v : β} :
    (m.retain p).lookup k = some v ↔ m.lookup k = some v ∧ p k v = true := by
  rw [lookup_eq_some, lookup_eq_some]
  exact Multiset.mem_filter

theorem mem_retain {p : κ → β → Bool} {m : KeyedMap κ β} {k : κ} :
    k ∈ m.retain p ↔ ∃ v, m.lookup k = some v ∧ p k v = true := by
  rw [Finmap.mem_iff]
  exact exists_congr fun v => lookup_retain

/-- Erasing keys one by one leaves the records under other keys. -/
theorem foldl_erase (m : KeyedMap κ β) (gone : List κ) :
    gone.foldl (fun m k => m.erase k) m = m.retain fun k _ => decide (k ∉ gone) := by
  apply Finmap.ext_lookup
  intro k
  apply Option.ext
  intro v
  rw [lookup_retain, decide_eq_true_iff]
  induction gone generalizing m with
  | nil => simp
  | cons g gone ih =>
    rw [List.foldl_cons, ih, List.mem_cons, not_or]
    by_cases hk : k = g
    · subst hk
      simp [Finmap.lookup_erase]
    · simp [Finmap.lookup_erase_ne hk, hk]

end KeyedMap

/-- The records of a map, in the order of a queue of keys. -/
def records (order : List κ) (m : KeyedMap κ β) : List β := order.filterMap fun k => m.lookup k

/-- The queue lists each key of the map once, and a record sits under its own key. -/
structure Indexes (key : β → κ) (order : List κ) (m : KeyedMap κ β) : Prop where
  nodup : order.Nodup
  mem_iff : ∀ k, k ∈ order ↔ k ∈ m
  keyed : ∀ ⦃k v⦄, m.lookup k = some v → key v = k

namespace Indexes

variable {key : β → κ} {order : List κ} {m : KeyedMap κ β}

theorem empty : Indexes key [] (∅ : KeyedMap κ β) where
  nodup := List.nodup_nil
  mem_iff _ := iff_of_false List.not_mem_nil Finmap.notMem_empty
  keyed k v h := by simp at h

theorem len_eq (h : Indexes key order m) : m.len = order.length := by
  have hkeys : m.keys = order.toFinset := by
    ext k
    rw [Finmap.mem_keys, List.mem_toFinset, h.mem_iff]
  rw [KeyedMap.len, hkeys, List.toFinset_card_of_nodup h.nodup]

/-- Read back, the keys that a map holds are the keys of its records. -/
theorem map_key_of_mem (h : Indexes key order m) {l : List κ} (hl : ∀ k ∈ l, k ∈ m) :
    (records l m).map key = l := by
  induction l with
  | nil => rfl
  | cons k l ih =>
    obtain ⟨v, hv⟩ := Finmap.mem_iff.mp (hl k List.mem_cons_self)
    have hrest := ih fun k hk => hl k (List.mem_cons_of_mem _ hk)
    rw [records] at hrest ⊢
    rw [List.filterMap_cons_some (f := fun k => m.lookup k) hv, List.map_cons, hrest, h.keyed hv]

theorem map_key_records (h : Indexes key order m) : (records order m).map key = order :=
  h.map_key_of_mem fun k hk => (h.mem_iff k).mp hk

theorem length_records (h : Indexes key order m) : (records order m).length = order.length := by
  rw [← List.length_map key, h.map_key_records]

theorem mem_records (h : Indexes key order m) {v : β} :
    v ∈ records order m ↔ m.lookup (key v) = some v := by
  rw [records, List.mem_filterMap]
  constructor
  · intro hv
    obtain ⟨k, -, hv⟩ := hv
    rw [h.keyed hv]
    exact hv
  · intro hv
    exact ⟨key v, (h.mem_iff _).mpr (Finmap.mem_of_lookup_eq_some hv), hv⟩

/-- A new record goes to the back of the queue. -/
theorem push (h : Indexes key order m) {v : β} (hv : key v ∉ m) :
    Indexes key (order ++ [key v]) (m.insert (key v) v) where
  nodup := by
    rw [← List.concat_eq_append]
    exact h.nodup.concat fun hmem => hv ((h.mem_iff _).mp hmem)
  mem_iff k := by
    rw [List.mem_append, List.mem_singleton, Finmap.mem_insert, h.mem_iff, or_comm]
  keyed k w hw := by
    by_cases hk : k = key v
    · subst hk
      rw [Finmap.lookup_insert] at hw
      cases hw
      rfl
    · rw [Finmap.lookup_insert_of_ne _ hk] at hw
      exact h.keyed hw

theorem records_push (h : Indexes key order m) {v : β} (hv : key v ∉ m) :
    records (order ++ [key v]) (m.insert (key v) v) = records order m ++ [v] := by
  have hold : order.filterMap (fun k => (m.insert (key v) v).lookup k) = records order m := by
    apply List.filterMap_congr
    intro k hk
    apply Finmap.lookup_insert_of_ne
    intro heq
    exact hv (heq ▸ (h.mem_iff k).mp hk)
  rw [records, List.filterMap_append, hold]
  simp [Finmap.lookup_insert]

/-- Keeping some keys in the queue and their records in the map. -/
theorem retain (h : Indexes key order m) (q : κ → Bool) :
    Indexes key (order.filter q) (m.retain fun k _ => q k) where
  nodup := h.nodup.filter _
  mem_iff k := by
    rw [List.mem_filter, h.mem_iff, KeyedMap.mem_retain, Finmap.mem_iff, exists_and_right]
  keyed k v hv := h.keyed (KeyedMap.lookup_retain.mp hv).1

theorem records_retain (h : Indexes key order m) (q : κ → Bool) :
    records (order.filter q) (m.retain fun k _ => q k) =
      (records order m).filter fun v => q (key v) := by
  rw [records, records, List.filterMap_filter, List.filter_filterMap]
  apply List.filterMap_congr
  intro k hk
  obtain ⟨v, hv⟩ := Finmap.mem_iff.mp ((h.mem_iff k).mp hk)
  rw [hv, Option.filter_some, h.keyed hv]
  cases hq : q k with
  | true => exact (if_pos rfl).trans (KeyedMap.lookup_retain.mpr ⟨hv, hq⟩)
  | false => rfl

/-- Dropping the front of the queue, and the records there. -/
theorem discard (gone kept : List κ) (h : Indexes key (gone ++ kept) m) :
    Indexes key kept (m.retain fun k _ => decide (k ∉ gone)) ∧
      records kept (m.retain fun k _ => decide (k ∉ gone)) =
        (records (gone ++ kept) m).drop gone.length := by
  have hgone : gone.filter (fun k => decide (k ∉ gone)) = [] :=
    List.filter_eq_nil_iff.mpr fun k hk => by simpa using hk
  have hkept : kept.filter (fun k => decide (k ∉ gone)) = kept :=
    List.filter_eq_self.mpr fun k hk =>
      decide_eq_true fun hk' => (List.nodup_append.mp h.nodup).2.2 k hk' k hk rfl
  have hfilter : (gone ++ kept).filter (fun k => decide (k ∉ gone)) = kept := by
    rw [List.filter_append, hgone, hkept, List.nil_append]
  have hindexes := h.retain fun k => decide (k ∉ gone)
  have hlen : (records gone m).length = gone.length := by
    rw [← List.length_map key, h.map_key_of_mem]
    intro k hk
    exact (h.mem_iff k).mp (List.mem_append_left _ hk)
  refine ⟨by rwa [hfilter] at hindexes, ?_⟩
  rw [records, records, List.filterMap_append, ← hlen]
  rw [show gone.filterMap (fun k => m.lookup k) = records gone m from rfl, List.drop_left]
  apply List.filterMap_congr
  intro k hk
  apply Option.ext
  intro v
  rw [KeyedMap.lookup_retain, decide_eq_true_iff]
  exact and_iff_left fun hk' => (List.nodup_append.mp h.nodup).2.2 k hk' k hk rfl

/-- Keeping the last `cap` keys keeps the last `cap` records. -/
theorem trim (cap : Nat) (h : Indexes key order m) :
    Indexes key (keepLast cap order) (m.retain fun k _ => decide (k ∉ pastLast cap order)) ∧
      records (keepLast cap order) (m.retain fun k _ => decide (k ∉ pastLast cap order)) =
        keepLast cap (records order m) := by
  have hlength : (pastLast cap order).length = (records order m).length - cap := by
    rw [pastLast, List.length_take, h.length_records]
    omega
  have hsplit := pastLast_append_keepLast cap order
  have hdiscard := Indexes.discard _ _ (hsplit.symm ▸ h)
  rw [hsplit, hlength] at hdiscard
  exact hdiscard

end Indexes

end KaspaPortal.Lib
