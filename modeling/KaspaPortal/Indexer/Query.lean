import KaspaPortal.Indexer.Records

/-!
# Queries

`src/indexer/query/mod.rs`: a page of a list, and the transactions of a query in the order they are shown. The
end of a page saturates above the length of any list, so it is a plain sum here.
-/
namespace KaspaPortal.Indexer

/-- Which part of a list is asked for. -/
structure PageRequest where
  offset : Nat
  limit : Nat
  deriving DecidableEq, Repr

/-- A part of a list, with how much there is. -/
structure Page (T : Type) where
  items : List T
  offset : Nat
  limit : Nat
  total : Nat
  hasMore : Bool
  deriving DecidableEq, Repr

/-- An offset behind the end gives an empty page; a limit of zero or above the maximum gives none. -/
def page {T : Type} (items : List T) (request : PageRequest) (maxPage : Nat) : Except String (Page T) :=
  if request.limit = 0 then .error "page limit must be > 0"
  else if maxPage < request.limit then .error ("page limit exceeds configured maximum " ++ toString maxPage)
  else
    let start := min request.offset items.length
    let stop := min (start + request.limit) items.length
    .ok {
      items := (items.take stop).drop start
      offset := start
      limit := request.limit
      total := items.length
      hasMore := stop < items.length }

/-- Both filters are optional. -/
structure TransactionQuery where
  address : Option String
  afterDaaScore : Option UInt64
  page : PageRequest

/-- Any of the transaction's addresses. -/
def addressMatches (transaction : IndexedTransaction) : Option String → Bool
  | none => true
  | some expected => transaction.addresses.any fun item => item == expected

/-- A transaction without a score is after none. -/
def daaScoreMatches (transaction : IndexedTransaction) : Option UInt64 → Bool
  | none => true
  | some minimum => (transaction.daaScore.map fun score => decide (minimum < score)).getD false

/-- The order of the sort keys. -/
def keyLe (left right : IndexedTransaction) : Bool :=
  let score := left.daaScore.getD 0
  let score' := right.daaScore.getD 0
  score < score' || score == score' && left.observedAtMs ≤ right.observedAtMs

/-- The matching transactions, by score and then by time; the sort is stable. -/
def filterTransactions (values : List IndexedTransaction) (query : TransactionQuery) : List IndexedTransaction :=
  (values.filter fun value =>
    addressMatches value query.address && daaScoreMatches value query.afterDaaScore).mergeSort keyLe

/-! ## Pages one after the other -/

/-- A client that asks for the next page until there is none. -/
inductive PageWalk {T : Type} (items : List T) (limit maxPage : Nat) : Nat → List (Page T) → Prop where
  | last {offset : Nat} {found : Page T} : page items ⟨offset, limit⟩ maxPage = .ok found →
    found.hasMore = false → PageWalk items limit maxPage offset [found]
  | next {offset : Nat} {found : Page T} {rest : List (Page T)} :
    page items ⟨offset, limit⟩ maxPage = .ok found → found.hasMore = true →
    PageWalk items limit maxPage (found.offset + found.limit) rest →
    PageWalk items limit maxPage offset (found :: rest)

section walk
variable {T : Type} {items : List T} {limit maxPage offset : Nat} {found : Page T}

/-- A page whose offset is in the list. -/
theorem page_ok (hlimit : 0 < limit) (hmax : limit ≤ maxPage) (hoffset : offset ≤ items.length) :
    page items ⟨offset, limit⟩ maxPage =
      .ok ⟨(items.drop offset).take limit, offset, limit, items.length, offset + limit < items.length⟩ := by
  have hitems : (items.take (min (offset + limit) items.length)).drop offset = (items.drop offset).take limit := by
    rw [List.drop_take, List.take_eq_take_iff, List.length_drop]
    omega
  have hmore : decide (min (offset + limit) items.length < items.length) =
      decide (offset + limit < items.length) := by
    apply decide_eq_decide.mpr
    omega
  rw [page, if_neg (Nat.ne_of_gt hlimit), if_neg (Nat.not_lt.mpr hmax)]
  simp only [Nat.min_eq_left hoffset, hitems, hmore]

/-- The pages of a walk, one after the other, are the rest of the list. -/
theorem walk_items {pages : List (Page T)} (hlimit : 0 < limit) (hmax : limit ≤ maxPage)
    (hwalk : PageWalk items limit maxPage offset pages) (hoffset : offset ≤ items.length) :
    pages.flatMap (·.items) = items.drop offset ∧
      ∀ found ∈ pages, found.items.length ≤ limit ∧ found.total = items.length := by
  induction hwalk with
  | @last offset found hpage hlast =>
    rw [page_ok hlimit hmax hoffset] at hpage
    cases hpage
    have hend : (items.drop offset).length ≤ limit := by
      rw [List.length_drop]
      have hshort := of_decide_eq_false hlast
      omega
    rw [List.flatMap_singleton, List.take_of_length_le hend]
    refine ⟨rfl, fun found hfound => ?_⟩
    rw [List.mem_singleton.mp hfound]
    exact ⟨hend, rfl⟩
  | @next offset found rest hpage hmore _ ih =>
    rw [page_ok hlimit hmax hoffset] at hpage
    cases hpage
    have hrest := of_decide_eq_true hmore
    obtain ⟨hitems, hpages⟩ := ih (Nat.le_of_lt hrest)
    constructor
    · rw [List.flatMap_cons, hitems, ← List.drop_drop, List.take_append_drop]
    · refine List.forall_mem_cons.mpr ⟨⟨List.length_take_le _ _, rfl⟩, hpages⟩

/-- The walk ends: each page starts behind the one before. -/
theorem exists_walk (hlimit : 0 < limit) (hmax : limit ≤ maxPage) (hoffset : offset ≤ items.length) :
    ∃ pages, PageWalk items limit maxPage offset pages := by
  induction hleft : items.length - offset using Nat.strongRecOn generalizing offset with
  | ind left ih =>
    have hpage := page_ok hlimit hmax hoffset
    by_cases hmore : offset + limit < items.length
    · obtain ⟨rest, hrest⟩ := ih (items.length - (offset + limit)) (by omega) (Nat.le_of_lt hmore) rfl
      exact ⟨_, PageWalk.next hpage (decide_eq_true hmore) hrest⟩
    · exact ⟨_, PageWalk.last hpage (decide_eq_false hmore)⟩

end walk

/-! ## The order of the transactions -/

/-- The order of the keys in words. -/
theorem keyLe_iff {left right : IndexedTransaction} : keyLe left right = true ↔
    left.daaScore.getD 0 < right.daaScore.getD 0 ∨
      left.daaScore.getD 0 = right.daaScore.getD 0 ∧ left.observedAtMs ≤ right.observedAtMs := by
  simp [keyLe]

/-- The order is transitive, as the sort needs. -/
theorem keyLe_trans (a b c : IndexedTransaction) (hab : keyLe a b = true) (hbc : keyLe b c = true) :
    keyLe a c = true := by
  rw [keyLe_iff] at hab hbc ⊢
  obtain hab | ⟨hab, htime⟩ := hab
  · obtain hbc | ⟨hbc, _⟩ := hbc
    · exact Or.inl (UInt64.lt_trans hab hbc)
    · exact Or.inl (hbc ▸ hab)
  · obtain hbc | ⟨hbc, htime'⟩ := hbc
    · exact Or.inl (hab ▸ hbc)
    · exact Or.inr ⟨hab.trans hbc, UInt64.le_trans htime htime'⟩

/-- Any two keys can be compared, as the sort needs. -/
theorem keyLe_total (a b : IndexedTransaction) : (keyLe a b || keyLe b a) = true := by
  rw [Bool.or_eq_true, keyLe_iff, keyLe_iff]
  obtain hlt | heq | hgt := Nat.lt_trichotomy (a.daaScore.getD 0).toNat (b.daaScore.getD 0).toNat
  · exact Or.inl (Or.inl (UInt64.lt_iff_toNat_lt.mpr hlt))
  · have hscore := UInt64.toNat_inj.mp heq
    obtain hle | hle := UInt64.le_total a.observedAtMs b.observedAtMs
    · exact Or.inl (Or.inr ⟨hscore, hle⟩)
    · exact Or.inr (Or.inr ⟨hscore.symm, hle⟩)
  · exact Or.inr (Or.inl (UInt64.lt_iff_toNat_lt.mpr hgt))

end KaspaPortal.Indexer

namespace KaspaPortal.Guarantees
open Indexer

/-- A client that asks for one page after the other gets every item once, in order, and comes to an end. The
transactions of a query are those that match, by score and time, and equal ones as they were. -/
theorem queries_complete (values : List IndexedTransaction) (query : TransactionQuery) (maxPage : Nat) :
    (∀ {T : Type} (items : List T) (limit : Nat), 0 < limit → limit ≤ maxPage →
      (∃ pages, PageWalk items limit maxPage 0 pages) ∧
        ∀ pages, PageWalk items limit maxPage 0 pages → pages.flatMap (·.items) = items ∧
          ∀ found ∈ pages, found.items.length ≤ limit ∧ found.total = items.length) ∧
    (filterTransactions values query).Perm (values.filter fun value =>
      addressMatches value query.address && daaScoreMatches value query.afterDaaScore) ∧
    (filterTransactions values query).Pairwise (fun left right => keyLe left right = true) ∧
    ∀ left right, keyLe left right = true →
      [left, right].Sublist (values.filter fun value =>
        addressMatches value query.address && daaScoreMatches value query.afterDaaScore) →
      [left, right].Sublist (filterTransactions values query) := by
  refine ⟨?_, List.mergeSort_perm _ _, List.pairwise_mergeSort keyLe_trans keyLe_total _, ?_⟩
  · intro T items limit hlimit hmax
    refine ⟨exists_walk hlimit hmax (Nat.zero_le _), fun pages hwalk => ?_⟩
    exact walk_items hlimit hmax hwalk (Nat.zero_le _)
  · intro left right hle hsublist
    exact List.pair_sublist_mergeSort keyLe_trans keyLe_total hle hsublist

end KaspaPortal.Guarantees
