import KaspaPortal.Lib.Result
import KaspaPortal.Randomness.Curby

/-!
# The CURBy cache under concurrent calls

The time of the last attempt is written under the lock that checks it, so the readings of the
fetches grow by a whole window each. What is stored is stored by whoever comes back last.

The clock may return anything: a reading below that of the last attempt counts as within its
window. What a fetch returns is arbitrary.
-/
namespace KaspaPortal.Randomness
open Lib

variable {libs : CurbyLibraries}

/-- A later reading, by a window at least. -/
def Spaced (a b : UInt64) : Prop := a.toNat + MIN_REFRESH_MS.toNat ≤ b.toNat

theorem spaced_of_saturatingSub {now last : UInt64}
    (h : ¬ saturatingSub now last < MIN_REFRESH_MS) : Spaced last now := by
  have hwindow : MIN_REFRESH_MS.toNat = 60000 := rfl
  rw [UInt64.lt_iff_toNat_lt, saturatingSub] at h
  split at h
  case isTrue hle =>
    rw [UInt64.toNat_sub_of_le _ _ hle] at h
    rw [UInt64.le_iff_toNat_le] at hle
    rw [Spaced]
    omega
  case isFalse =>
    rw [hwindow] at h
    exact absurd (show (0 : UInt64).toNat < 60000 by decide) h

namespace CurbySystem

/-- The last attempt is the last fetch, and the cached value is the last one stored. -/
structure Inv (s : CurbySystem) : Prop where
  spaced : s.initiated.Pairwise Spaced
  last_attempt : s.cache.lastAttemptMs = s.initiated.getLast?
  waiting_lt : ∀ fetch ∈ s.waiting, fetch < s.initiated.length
  stored_lt : ∀ fetch ∈ s.stored, fetch < s.initiated.length
  cached : s.cache.evidence.map CurbyEvidence.retrievedAtMs =
    s.stored.getLast?.bind fun fetch => s.initiated[fetch]?

theorem inv_initial : initial.Inv := ⟨List.Pairwise.nil, rfl, by simp [initial], by simp [initial], rfl⟩

/-- The lock gives a cached value or refuses, or it reserves a fetch. -/
theorem reserveOrCached_cases (cache : CacheState) (now : UInt64) :
    (∃ result, result ≠ .ok none ∧ cache.reserveOrCached now = (result, cache)) ∨
      (∀ last ∈ cache.lastAttemptMs, Spaced last now) ∧
        cache.reserveOrCached now = (.ok none, { cache with lastAttemptMs := some now }) := by
  rw [CacheState.reserveOrCached]
  split
  case isTrue hcached =>
    refine .inl ⟨_, fun hnone => ?_, rfl⟩
    rw [Except.ok.inj hnone] at hcached
    cases hcached
  case isFalse =>
    split
    case isTrue =>
      refine .inl ⟨_, ?_, rfl⟩
      cases cache.evidence with
      | none => exact fun h => by cases h
      | some cached => exact fun h => by cases h
    case isFalse hlast =>
      refine .inr ⟨fun last hmem => spaced_of_saturatingSub fun hlt => hlast ?_, rfl⟩
      rw [Option.mem_def.mp hmem]
      exact decide_eq_true hlt

/-- A call reserves a fetch, or leaves everything as it was. -/
theorem call_cases (s : CurbySystem) (now : UInt64) :
    s.call now = s ∨
      (∀ last ∈ s.cache.lastAttemptMs, Spaced last now) ∧
        s.call now =
          { s with
            cache := { s.cache with lastAttemptMs := some now }
            initiated := s.initiated ++ [now]
            waiting := s.waiting ++ [s.initiated.length] } := by
  rcases reserveOrCached_cases s.cache now with ⟨result, hresult, heq⟩ | ⟨hspaced, heq⟩
  · left
    rw [call, heq]
    cases result with
    | error e => rfl
    | ok cached =>
      cases cached with
      | none => exact absurd rfl hresult
      | some cached => rfl
  · right
    rw [call, heq]
    exact ⟨hspaced, rfl⟩

theorem parseResponse_retrievedAtMs {body : Bytes} {now : UInt64} {evidence : CurbyEvidence}
    (h : parseResponse libs body now = .ok evidence) : evidence.retrievedAtMs = now := by
  rw [parseResponse] at h
  obtain ⟨_, _, h⟩ := bind_eq_ok.mp h
  obtain ⟨_, _, h⟩ := bind_eq_ok.mp h
  obtain ⟨_, _, h⟩ := bind_eq_ok.mp h
  obtain ⟨_, _, h⟩ := bind_eq_ok.mp h
  obtain ⟨_, _, h⟩ := bind_eq_ok.mp h
  cases h
  rfl

/-- A fetch stores a value read at its own time, or only stops waiting. -/
theorem finish_cases (s : CurbySystem) (fetch : Nat) (body : Except String Bytes) :
    s.finish libs fetch body = { s with waiting := s.waiting.erase fetch } ∨
      ∃ evidence, s.initiated[fetch]? = some evidence.retrievedAtMs ∧
        s.finish libs fetch body =
          { s with
            cache := { s.cache with evidence := some evidence }
            waiting := s.waiting.erase fetch
            stored := s.stored ++ [fetch] } := by
  rw [finish]
  cases hresponse : s.response libs fetch body with
  | none => exact .inl rfl
  | some evidence =>
    refine .inr ⟨evidence, ?_, rfl⟩
    rw [response] at hresponse
    obtain ⟨now, hnow, hresponse⟩ := Option.bind_eq_some_iff.mp hresponse
    obtain ⟨text, _, hresponse⟩ := Option.bind_eq_some_iff.mp hresponse
    cases hparsed : parseResponse libs text now with
    | error e => rw [hparsed] at hresponse; cases hresponse
    | ok parsed =>
      rw [hparsed] at hresponse
      cases hresponse
      rw [hnow, parseResponse_retrievedAtMs hparsed]

theorem Inv.call {s : CurbySystem} (h : s.Inv) (now : UInt64) : (s.call now).Inv := by
  rcases s.call_cases now with hsame | ⟨hspaced, heq⟩
  · rwa [hsame]
  · rw [heq]
    have hlength : (s.initiated ++ [now]).length = s.initiated.length + 1 := List.length_append
    refine ⟨?_, ?_, fun fetch hfetch => ?_, fun fetch hfetch => ?_, ?_⟩
    · -- Every earlier reading is the last one or a window before it.
      refine List.pairwise_append.mpr ⟨h.spaced, List.pairwise_singleton _ _, ?_⟩
      intro earlier hearlier later hlater
      rw [List.mem_singleton.mp hlater]
      rw [h.last_attempt] at hspaced
      obtain ⟨front, last, heq⟩ := List.eq_nil_or_concat' s.initiated |>.resolve_left
        (List.ne_nil_of_mem hearlier)
      have hlast := hspaced last (by rw [heq, List.getLast?_concat]; rfl)
      have hfront := h.spaced
      rw [heq] at hearlier hfront
      cases List.mem_append.mp hearlier with
      | inl hmem =>
        have hgap := (List.pairwise_append.mp hfront).2.2 _ hmem _ (List.mem_singleton.mpr rfl)
        rw [Spaced] at hgap hlast ⊢
        omega
      | inr hmem => rwa [List.mem_singleton.mp hmem]
    · rw [List.getLast?_concat]
    · rw [hlength]
      cases List.mem_append.mp hfetch with
      | inl hmem => exact Nat.lt_succ_of_lt (h.waiting_lt _ hmem)
      | inr hmem => rw [List.mem_singleton.mp hmem]; exact Nat.lt_succ_self _
    · rw [hlength]
      exact Nat.lt_succ_of_lt (h.stored_lt _ hfetch)
    · refine h.cached.trans ?_
      cases hlast : s.stored.getLast? with
      | none => rfl
      | some fetch =>
        have hlt := h.stored_lt _ (List.mem_of_getLast? hlast)
        exact (List.getElem?_append_left hlt).symm

theorem Inv.finish {s : CurbySystem} (h : s.Inv) {fetch : Nat} (hfetch : fetch ∈ s.waiting)
    (body : Except String Bytes) : (s.finish libs fetch body).Inv := by
  have hwaiting : ∀ other ∈ s.waiting.erase fetch, other < s.initiated.length :=
    fun other hother => h.waiting_lt _ (List.mem_of_mem_erase hother)
  rcases s.finish_cases fetch body with heq | ⟨evidence, hreading, heq⟩
  · rw [heq]
    exact ⟨h.spaced, h.last_attempt, hwaiting, h.stored_lt, h.cached⟩
  · rw [heq]
    refine ⟨h.spaced, h.last_attempt, hwaiting, fun other hother => ?_, ?_⟩
    · cases List.mem_append.mp hother with
      | inl hmem => exact h.stored_lt _ hmem
      | inr hmem => rw [List.mem_singleton.mp hmem]; exact h.waiting_lt _ hfetch
    · rw [List.getLast?_concat]
      exact hreading.symm

theorem Inv.step {s after : CurbySystem} (h : s.Inv) {event : CurbyEvent}
    (hstep : s.step libs event = some after) : after.Inv := by
  cases event with
  | call now =>
    cases hstep
    exact h.call now
  | finish fetch body =>
    rw [CurbySystem.step] at hstep
    split at hstep
    case isTrue hfetch =>
      cases hstep
      exact h.finish hfetch body
    case isFalse => cases hstep

/-! ## What the cache holds over a run -/

/-- The cached value is not replaced by an older one. -/
def Rises (s after : CurbySystem) : Prop :=
  ∀ cached ∈ s.cache.evidence, ∃ next ∈ after.cache.evidence, cached.retrievedAtMs ≤ next.retrievedAtMs

variable (libs) in
/-- At no step of a run. -/
def RisesAlong (s : CurbySystem) : List CurbyEvent → Prop
  | [] => True
  | event :: rest => ∀ after, s.step libs event = some after → s.Rises after ∧ after.RisesAlong rest

/-- Readings are in the order of the fetches. -/
theorem Inv.reading_le_iff {s : CurbySystem} (h : s.Inv) {i j : Nat} {a b : UInt64}
    (ha : s.initiated[i]? = some a) (hb : s.initiated[j]? = some b) : a ≤ b ↔ i ≤ j := by
  have hspaced : ∀ {i j : Nat} {a b : UInt64}, s.initiated[i]? = some a → s.initiated[j]? = some b →
      i < j → a.toNat < b.toNat := by
    intro i j a b ha hb hij
    obtain ⟨hi, rfl⟩ := List.getElem?_eq_some_iff.mp ha
    obtain ⟨hj, rfl⟩ := List.getElem?_eq_some_iff.mp hb
    have hgap := List.pairwise_iff_getElem.mp h.spaced i j hi hj hij
    have hwindow : MIN_REFRESH_MS.toNat = 60000 := rfl
    rw [Spaced] at hgap
    omega
  rw [UInt64.le_iff_toNat_le]
  constructor
  · intro hle
    by_contra hlt
    exact Nat.not_lt.mpr hle (hspaced hb ha (Nat.lt_of_not_le hlt))
  · intro hij
    rcases Nat.lt_or_eq_of_le hij with hlt | heq
    · exact Nat.le_of_lt (hspaced ha hb hlt)
    · rw [heq, hb] at ha
      cases ha
      exact Nat.le_refl _

/-- What a step stores, and that the cache rises when it is no earlier fetch than the last. -/
theorem Inv.step_stored {s after : CurbySystem} (h : s.Inv) {event : CurbyEvent}
    (hstep : s.step libs event = some after) :
    (after.stored = s.stored ∧ s.Rises after) ∨
      ∃ fetch, after.stored = s.stored ++ [fetch] ∧
        (s.Rises after ↔ ∀ last ∈ s.stored.getLast?, last ≤ fetch) := by
  cases event with
  | call now =>
    left
    cases hstep
    rcases s.call_cases now with hsame | ⟨_, heq⟩
    · rw [hsame]
      exact ⟨rfl, fun cached hcached => ⟨cached, hcached, UInt64.le_refl _⟩⟩
    · rw [heq]
      exact ⟨rfl, fun cached hcached => ⟨cached, hcached, UInt64.le_refl _⟩⟩
  | finish fetch body =>
    rw [CurbySystem.step] at hstep
    split at hstep
    case isFalse => cases hstep
    case isTrue hfetch =>
      cases hstep
      rcases s.finish_cases fetch body with heq | ⟨evidence, hreading, heq⟩
      · rw [heq]
        exact .inl ⟨rfl, fun cached hcached => ⟨cached, hcached, UInt64.le_refl _⟩⟩
      · rw [heq]
        refine .inr ⟨fetch, rfl, ?_⟩
        have hcached := h.cached
        cases hlast : s.stored.getLast? with
        | none =>
          rw [hlast] at hcached
          have hnone : s.cache.evidence = none := Option.map_eq_none_iff.mp hcached
          rw [Rises, hnone]
          simp
        | some last =>
          have hlt := h.stored_lt _ (List.mem_of_getLast? hlast)
          rw [hlast, Option.bind_some, List.getElem?_eq_getElem hlt] at hcached
          obtain ⟨cached, hevidence, hretrieved⟩ := Option.map_eq_some_iff.mp hcached
          have horder := h.reading_le_iff (List.getElem?_eq_getElem hlt) hreading
          rw [Rises, hevidence]
          simp only [Option.mem_some_iff, forall_eq', exists_eq_left', hretrieved]
          exact horder

/-- Over a run the cache rises exactly when the fetches were stored in their order. -/
theorem risesAlong_iff {s after : CurbySystem} (h : s.Inv) {events : List CurbyEvent}
    (hrun : events.foldlM (CurbySystem.step libs) s = some after) :
    after.Inv ∧ ∃ new, after.stored = s.stored ++ new ∧
      (s.RisesAlong libs events ↔ (s.stored.getLast?.toList ++ new).Pairwise (· ≤ ·)) := by
  induction events generalizing s with
  | nil =>
    cases hrun
    refine ⟨h, [], (List.append_nil _).symm, ?_⟩
    cases after.stored.getLast? <;> simp [RisesAlong]
  | cons event rest ih =>
    rw [List.foldlM_cons] at hrun
    obtain ⟨middle, hstep, hrun⟩ := Option.bind_eq_some_iff.mp hrun
    obtain ⟨hafter, new, hnew, hiff⟩ := ih (h.step hstep) hrun
    have hrises : s.RisesAlong libs (event :: rest) ↔ s.Rises middle ∧ middle.RisesAlong libs rest := by
      rw [RisesAlong]
      simp only [hstep, Option.some.injEq, forall_eq']
    rcases h.step_stored hstep with ⟨hstored, hholds⟩ | ⟨fetch, hstored, hholds⟩
    · rw [hstored] at hnew hiff
      exact ⟨hafter, new, hnew, by rw [hrises, hiff, and_iff_right hholds]⟩
    · rw [hstored] at hnew hiff
      rw [List.getLast?_concat, Option.toList_some, List.singleton_append] at hiff
      refine ⟨hafter, fetch :: new, by rw [hnew, List.append_assoc]; rfl, ?_⟩
      rw [hrises, hholds, hiff]
      cases s.stored.getLast? with
      | none => simp
      | some last =>
        simp only [Option.mem_some_iff, forall_eq', Option.toList_some, List.singleton_append,
          List.pairwise_cons, List.mem_cons, forall_eq_or_imp]
        exact ⟨fun h => ⟨⟨h.1, fun a ha => Nat.le_trans h.1 (h.2.1 a ha)⟩, h.2⟩,
          fun h => ⟨h.1.1, h.2⟩⟩

end CurbySystem

end KaspaPortal.Randomness

namespace KaspaPortal.Guarantees
open Lib Randomness

/-- The readings of any two fetches are a window apart, in whatever order calls run. The cached value
never gives way to an older one if and only if fetches are stored in the order they were
initiated. -/
theorem curby_cache {libs : CurbyLibraries} {events : List CurbyEvent} {s : CurbySystem}
    (h : CurbySystem.run libs events = some s) :
    s.initiated.Pairwise (fun a b => a.toNat + MIN_REFRESH_MS.toNat ≤ b.toNat) ∧
      (CurbySystem.initial.RisesAlong libs events ↔ s.stored.Pairwise (· ≤ ·)) := by
  obtain ⟨hinv, new, hnew, hiff⟩ := CurbySystem.risesAlong_iff CurbySystem.inv_initial h
  refine ⟨hinv.spaced, ?_⟩
  rw [hiff, hnew]
  rfl

namespace CurbyCache

theorem length_sampleDigest : (List.replicate 32 (1 : UInt8)).length = 32 := List.length_replicate

/-- Every response holds one value. -/
def sampleLibraries : CurbyLibraries where
  fromStr _ := .ok (.string (List.replicate 32 0x30))
  sha256 _ := ⟨List.replicate 32 1, length_sampleDigest⟩
  base64 _ := none

/-- When the cached value was retrieved, after a run. -/
def retrieved (events : List CurbyEvent) : Option UInt64 :=
  ((CurbySystem.run sampleLibraries events).bind fun s => s.cache.evidence).map
    CurbyEvidence.retrievedAtMs

end CurbyCache

open CurbyCache

/-- The first fetch comes back after the second. -/
theorem curby_cache_overtaken :
    retrieved [.call 0, .call 60000, .finish 1 (.ok [])] = some 60000 ∧
      retrieved [.call 0, .call 60000, .finish 1 (.ok []), .finish 0 (.ok [])] = some 0 := by
  decide

/-- The clock jumps back, and the fetches end in their order. -/
theorem curby_cache_in_order :
    CurbySystem.initial.RisesAlong sampleLibraries
      [.call 100, .call 50, .call 60100, .finish 0 (.ok []), .finish 1 (.ok [])] := by
  have hrun : (CurbySystem.run sampleLibraries
      [.call 100, .call 50, .call 60100, .finish 0 (.ok []), .finish 1 (.ok [])]).map
        CurbySystem.stored = some [0, 1] := by
    decide
  obtain ⟨s, hs, hstored⟩ := Option.map_eq_some_iff.mp hrun
  refine (curby_cache hs).2.mpr ?_
  rw [hstored]
  decide

end KaspaPortal.Guarantees
