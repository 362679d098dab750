import KaspaPortal.Lib.JsonGrammar
import KaspaPortal.Transaction.Pskt.Json

/-!
# The reader of restricted JSON and the grammar

What each step of the reader leaves, in terms of the texts of the grammar.
-/
namespace KaspaPortal.Transaction.Pskt
open Lib Lib.Json

namespace Cursor

/-- No number goes on here. -/
def Stops (rest : Bytes) : Prop :=
  ∀ b, rest.head? = some b → isDigit b = false ∧ continuesNumber b = false

/-- A number ends before a byte that cannot continue it. -/
theorem stops_cons {b : UInt8} {rest : Bytes} (hdigit : isDigit b = false)
    (hcontinues : continuesNumber b = false) : Stops (b :: rest) := by
  intro c hc
  cases hc
  exact ⟨hdigit, hcontinues⟩

/-- And before white space. -/
theorem stops_blank {w rest : Bytes} (hw : Blank w) (hrest : Stops rest) : Stops (w ++ rest) := by
  cases w with
  | nil => exact hrest
  | cons b w =>
    have hb := hw b List.mem_cons_self
    simp only [Json.isBlank, decide_eq_true_eq] at hb
    rcases hb with rfl | rfl | rfl | rfl <;> exact stops_cons (by decide) (by decide)

/-! ## Tokens -/

/-- What is skipped is white space. -/
theorem ws_split (rest : Bytes) : ∃ w, Blank w ∧ rest = w ++ ws rest :=
  ⟨rest.takeWhile isBlank, fun _ hb => List.mem_takeWhile_imp hb,
    (List.takeWhile_append_dropWhile).symm⟩

/-- White space in front is all skipped. -/
theorem ws_append {w : Bytes} (hw : Blank w) (rest : Bytes) : ws (w ++ rest) = ws rest :=
  List.dropWhile_append_of_pos hw

theorem ws_cons {b : UInt8} (hb : isBlank b = false) (rest : Bytes) : ws (b :: rest) = b :: rest :=
  List.dropWhile_cons_of_neg (by rw [hb]; exact Bool.false_ne_true)

theorem ws_blank_cons {w : Bytes} (hw : Blank w) {b : UInt8} (hb : isBlank b = false)
    (rest : Bytes) : ws (w ++ b :: rest) = b :: rest := by
  rw [ws_append hw, ws_cons hb]

/-- A byte is consumed when it is the expected one. -/
theorem consumeIf_eq_some {expected : UInt8} {rest after : Bytes} :
    consumeIf expected rest = some after ↔ rest = expected :: after := by
  cases rest with
  | nil =>
    exact iff_of_false (fun h => by cases h) (fun h => by cases h)
  | cons b rest =>
    rw [consumeIf]
    by_cases hb : b = expected
    · rw [if_pos hb, hb]
      constructor
      · intro h
        cases h
        rfl
      · intro h
        cases h
        rfl
    · rw [if_neg hb]
      refine iff_of_false (fun h => by cases h) (fun h => ?_)
      cases h
      exact hb rfl

theorem consumeIf_self (expected : UInt8) (after : Bytes) :
    consumeIf expected (expected :: after) = some after := consumeIf_eq_some.mpr rfl

/-- White space may stand before a byte of the syntax. -/
theorem byte_ok {expected : UInt8} (hexpected : isBlank expected = false) {rest after : Bytes} :
    byte expected rest = .ok after ↔ ∃ w, Blank w ∧ rest = w ++ expected :: after := by
  rw [byte, okOr_eq_ok, consumeIf_eq_some]
  constructor
  · intro h
    obtain ⟨w, hw, hrest⟩ := ws_split rest
    exact ⟨w, hw, by rw [← h]; exact hrest⟩
  · intro h
    obtain ⟨w, hw, rfl⟩ := h
    exact ws_blank_cons hw hexpected after

/-- A string holds no escape and no control character. -/
theorem string_ok {rest s after : Bytes} :
    string rest = .ok (s, after) ↔ ∃ w, Blank w ∧ Plain s ∧ rest = w ++ quoted s ++ after := by
  have hquote : isBlank QUOTE = false := by decide
  have hplain : isPlain QUOTE = false := by decide
  rw [string, bind_eq_ok]
  constructor
  · intro h
    obtain ⟨opened, hopen, hclose⟩ := h
    rw [bind_eq_ok] at hclose
    obtain ⟨closed, hclosed, heq⟩ := hclose
    rw [okOr_eq_ok, consumeIf_eq_some] at hclosed
    cases heq
    obtain ⟨w, hw, rfl⟩ := (byte_ok hquote).mp hopen
    refine ⟨w, hw, fun b hb => List.mem_takeWhile_imp hb, ?_⟩
    have hsplit := (List.takeWhile_append_dropWhile (p := isPlain) (l := opened)).symm
    rw [hclosed] at hsplit
    have hcontent : w ++ QUOTE :: opened =
        w ++ QUOTE :: (opened.takeWhile isPlain ++ QUOTE :: after) := by rw [← hsplit]
    rw [hcontent]
    simp [quoted, QUOTE]
  · intro h
    obtain ⟨w, hw, hs, rfl⟩ := h
    refine ⟨s ++ QUOTE :: after, (byte_ok hquote).mpr ⟨w, hw, by simp [quoted, QUOTE]⟩, ?_⟩
    have hs' : ∀ b ∈ s, isPlain b = true := hs
    rw [List.dropWhile_append_of_pos hs', List.takeWhile_append_of_pos hs',
      List.dropWhile_cons_of_neg (by rw [hplain]; exact Bool.false_ne_true),
      List.takeWhile_cons_of_neg (by rw [hplain]; exact Bool.false_ne_true), List.append_nil,
      consumeIf_self]
    rfl

/-- The digits a number starts with are its text. -/
theorem number_ok {rest after : Bytes} (hdigit : rest.head?.any isDigit = true)
    (h : number rest = .ok after) : ∃ digits, Canonical digits ∧ rest = digits ++ after := by
  rw [number, bind_eq_ok] at h
  obtain ⟨u, hreject, heq⟩ := h
  rw [rejectIf_eq_ok, not_or] at hreject
  cases heq
  refine ⟨rest.takeWhile isDigit, ⟨?_, fun b hb => List.mem_takeWhile_imp hb, fun hzero => ?_⟩,
    (List.takeWhile_append_dropWhile).symm⟩
  · cases rest with
    | nil => cases hdigit
    | cons b rest =>
      have hb : isDigit b = true := hdigit
      rw [List.takeWhile_cons_of_pos hb]
      exact List.cons_ne_nil _ _
  · have hlen : ¬ 1 < (rest.takeWhile isDigit).length := fun hlt => hreject.1 ⟨hzero, hlt⟩
    have hpos : 0 < (rest.takeWhile isDigit).length := by
      cases hrun : rest.takeWhile isDigit with
      | nil =>
        rw [hrun] at hzero
        cases hzero
      | cons b run => exact Nat.succ_pos _
    omega

/-- A canonical numeral is read up to its end. -/
theorem number_of_canonical {digits after : Bytes} (h : Canonical digits) (hstops : Stops after) :
    number (digits ++ after) = .ok after := by
  have hdigits : ∀ b ∈ digits, isDigit b = true := h.isDigit
  have hstop : after.dropWhile isDigit = after ∧ after.takeWhile isDigit = [] := by
    cases after with
    | nil => exact ⟨rfl, rfl⟩
    | cons b after =>
      have hb := (hstops b rfl).1
      exact ⟨List.dropWhile_cons_of_neg (by rw [hb]; exact Bool.false_ne_true),
        List.takeWhile_cons_of_neg (by rw [hb]; exact Bool.false_ne_true)⟩
  rw [number, List.takeWhile_append_of_pos hdigits, List.dropWhile_append_of_pos hdigits, hstop.1,
    hstop.2, List.append_nil, bind_eq_ok]
  refine ⟨(), ?_, rfl⟩
  rw [rejectIf_eq_ok, not_or, not_and]
  refine ⟨fun hzero => ?_, ?_⟩
  · rw [h.no_leading_zero hzero]
    exact Nat.lt_irrefl 1
  · cases after with
    | nil => exact Bool.false_ne_true
    | cons b after =>
      change ¬ continuesNumber b = true
      rw [(hstops b rfl).2]
      exact Bool.false_ne_true

/-- A literal is read letter by letter. -/
theorem literal_ok {expected rest after : Bytes} :
    literal expected rest = .ok after ↔ rest = expected ++ after := by
  rw [literal, bind_eq_ok]
  constructor
  · intro h
    obtain ⟨u, hreject, heq⟩ := h
    rw [rejectIf_eq_ok, not_not] at hreject
    cases heq
    conv_lhs => rw [← List.take_append_drop expected.length rest, hreject]
  · intro h
    subst h
    exact ⟨(), by rw [rejectIf_eq_ok, not_not, List.take_left], by rw [List.drop_left]; rfl⟩

/-- A comma: the list goes on. -/
theorem listEnd_more {close : UInt8} {rest after : Bytes} :
    listEnd close rest = .ok (false, after) ↔ ∃ w, Blank w ∧ rest = w ++ COMMA :: after := by
  have hcomma : isBlank COMMA = false := by decide
  rw [listEnd]
  constructor
  · intro h
    split at h
    case h_1 next hconsume =>
      cases h
      rw [consumeIf_eq_some] at hconsume
      obtain ⟨w, hw, hrest⟩ := ws_split rest
      exact ⟨w, hw, by rw [← hconsume]; exact hrest⟩
    case h_2 =>
      split at h
      case h_1 => cases h
      case h_2 => cases h
  · intro h
    obtain ⟨w, hw, rfl⟩ := h
    rw [ws_blank_cons hw hcomma, consumeIf_self]

/-- The closing byte: the list ends. -/
theorem listEnd_done {close : UInt8} (hclose : isBlank close = false) (hcomma : close ≠ COMMA)
    {rest after : Bytes} :
    listEnd close rest = .ok (true, after) ↔ ∃ w, Blank w ∧ rest = w ++ close :: after := by
  rw [listEnd]
  constructor
  · intro h
    split at h
    case h_1 => cases h
    case h_2 =>
      split at h
      case h_1 next hconsume =>
        cases h
        rw [consumeIf_eq_some] at hconsume
        obtain ⟨w, hw, hrest⟩ := ws_split rest
        exact ⟨w, hw, by rw [← hconsume]; exact hrest⟩
      case h_2 => cases h
  · intro h
    obtain ⟨w, hw, rfl⟩ := h
    rw [ws_blank_cons hw hclose, consumeIf, if_neg hcomma, consumeIf_self]

/-! ## Containers -/

section containers

variable {value : Bytes → Except JsonSyntaxError Bytes} {V : Bytes → Json → Prop}

/-- Whatever a reader takes is blanks and a text. -/
def Sound (value : Bytes → Except JsonSyntaxError Bytes) (V : Bytes → Json → Prop) : Prop :=
  ∀ rest after, value rest = .ok after →
    ∃ w text document, Blank w ∧ V text document ∧ rest = w ++ text ++ after

/-- A reader takes every text, unless a number goes on behind it. -/
def Total (value : Bytes → Except JsonSyntaxError Bytes) (V : Bytes → Json → Prop) : Prop :=
  ∀ w text document after, Blank w → V text document → Stops after →
    value (w ++ text ++ after) = .ok after

/-- What is accepted as a member is a name, a colon and a value. -/
theorem objectMember_sound (hvalue : Sound value V) {rest key after : Bytes}
    (h : objectMember value rest = .ok (key, after)) :
    ∃ w text item, Blank w ∧ MemberText V text (key, item) ∧ rest = w ++ text ++ after := by
  rw [objectMember, bind_eq_ok] at h
  obtain ⟨named, hname, h⟩ := h
  obtain ⟨name, afterName⟩ := named
  rw [bind_eq_ok] at h
  obtain ⟨afterColon, hcolon, h⟩ := h
  rw [bind_eq_ok] at h
  obtain ⟨afterValue, hitem, h⟩ := h
  cases h
  obtain ⟨w, hw, hkey, rfl⟩ := string_ok.mp hname
  obtain ⟨w', hw', rfl⟩ := (byte_ok (by decide)).mp hcolon
  obtain ⟨w'', text, item, hw'', htext, rfl⟩ := hvalue _ _ hitem
  refine ⟨w, _, item, hw, .intro hw' hkey hw'' htext, ?_⟩
  simp [COLON]

/-- Every such text is accepted. -/
theorem objectMember_total (hvalue : Total value V) {w text after : Bytes} {member : Bytes × Json}
    (hw : Blank w) (h : MemberText V text member) (hstops : Stops after) :
    objectMember value (w ++ text ++ after) = .ok (member.1, after) := by
  cases h with
  | @intro w' key w'' text item hw' hkey hw'' h =>
    rw [objectMember, bind_eq_ok]
    refine ⟨(key, w' ++ COLON :: (w'' ++ text ++ after)), string_ok.mpr ⟨w, hw, hkey, ?_⟩, ?_⟩
    · simp [COLON]
    · dsimp only
      rw [bind_eq_ok]
      refine ⟨w'' ++ text ++ after, (byte_ok (by decide)).mpr ⟨w', hw', rfl⟩, ?_⟩
      rw [bind_eq_ok]
      exact ⟨after, hvalue w'' text item after hw'' h hstops, rfl⟩

/-- By induction on the fuel: what is accepted is a row of values. -/
theorem arrayLoop_sound (hvalue : Sound value V) {fuel : Nat} {rest after : Bytes}
    (h : arrayLoop value fuel rest = .ok after) :
    ∃ body items, ItemsText V body items ∧ rest = body ++ RBRACKET :: after := by
  induction fuel generalizing rest with
  | zero => cases h
  | succ fuel ih =>
    rw [arrayLoop, bind_eq_ok] at h
    obtain ⟨afterItem, hitem, h⟩ := h
    rw [bind_eq_ok] at h
    obtain ⟨listed, hend, h⟩ := h
    obtain ⟨ended, afterEnd⟩ := listed
    obtain ⟨w, text, item, hw, htext, rfl⟩ := hvalue _ _ hitem
    dsimp only at h
    cases ended with
    | true =>
      rw [if_pos rfl] at h
      cases h
      obtain ⟨w', hw', rfl⟩ := (listEnd_done (by decide) (by decide)).mp hend
      exact ⟨_, [item], .last hw htext hw', by simp⟩
    | false =>
      rw [if_neg Bool.false_ne_true] at h
      obtain ⟨w', hw', rfl⟩ := listEnd_more.mp hend
      obtain ⟨body, items, hbody, rfl⟩ := ih h
      exact ⟨_, item :: items, .cons hw htext hw' hbody, by simp [COMMA]⟩

/-- By induction on the row, which the fuel covers. -/
theorem arrayLoop_total (hvalue : Total value V) (hnonempty : ∀ text item, V text item → text ≠ [])
    {body : Bytes} {items : List Json} (h : ItemsText V body items) {fuel : Nat} {after : Bytes}
    (hfuel : body.length < fuel) :
    arrayLoop value fuel (body ++ RBRACKET :: after) = .ok after := by
  induction h generalizing fuel with
  | @last w text w' item hw h hw' =>
    cases fuel with
    | zero => exact absurd hfuel (Nat.not_lt_zero _)
    | succ fuel =>
      have hstops : Stops (w' ++ RBRACKET :: after) :=
        stops_blank hw' (stops_cons (by decide) (by decide))
      rw [arrayLoop, bind_eq_ok]
      refine ⟨w' ++ RBRACKET :: after, ?_, ?_⟩
      · rw [List.append_assoc]
        exact hvalue w text item _ hw h hstops
      · rw [bind_eq_ok]
        exact ⟨(true, after), (listEnd_done (by decide) (by decide)).mpr ⟨w', hw', rfl⟩, rfl⟩
  | @cons w text w' rest item items hw h hw' hrest ih =>
    cases fuel with
    | zero => exact absurd hfuel (Nat.not_lt_zero _)
    | succ fuel =>
      have hstops : Stops (w' ++ COMMA :: (rest ++ RBRACKET :: after)) :=
        stops_blank hw' (stops_cons (by decide) (by decide))
      have htext := List.length_pos_iff.mpr (hnonempty text item h)
      simp only [List.length_append, List.length_cons] at hfuel
      rw [arrayLoop, bind_eq_ok]
      refine ⟨w' ++ COMMA :: (rest ++ RBRACKET :: after), ?_, ?_⟩
      · have hread := hvalue w text item _ hw h hstops
        simp only [List.append_assoc, List.cons_append, List.nil_append, COMMA] at hread ⊢
        exact hread
      · rw [bind_eq_ok]
        refine ⟨(false, rest ++ RBRACKET :: after), listEnd_more.mpr ⟨w', hw', rfl⟩, ?_⟩
        exact ih (by omega)

/-- What is accepted is a row of members, none with a name already seen. -/
theorem objectLoop_sound (hvalue : Sound value V) {fuel : Nat} {keys : List Bytes}
    {rest after : Bytes} (h : objectLoop value fuel keys rest = .ok after) :
    ∃ body members, MembersText V body members ∧ rest = body ++ RBRACE :: after ∧
      (keys ++ members.map Prod.fst).Nodup := by
  induction fuel generalizing keys rest with
  | zero => cases h
  | succ fuel ih =>
    rw [objectLoop, bind_eq_ok] at h
    obtain ⟨read, hmember, h⟩ := h
    obtain ⟨key, afterMember⟩ := read
    dsimp only at h
    rw [bind_eq_ok] at h
    obtain ⟨listed, hend, h⟩ := h
    obtain ⟨ended, afterEnd⟩ := listed
    obtain ⟨w, text, item, hw, htext, rfl⟩ := objectMember_sound hvalue hmember
    dsimp only at h
    cases ended with
    | true =>
      rw [if_pos rfl, bind_eq_ok] at h
      obtain ⟨u, hnodup, h⟩ := h
      cases h
      rw [rejectDuplicateKeys, rejectIf_eq_ok, not_not] at hnodup
      obtain ⟨w', hw', rfl⟩ := (listEnd_done (by decide) (by decide)).mp hend
      exact ⟨_, [(key, item)], .last hw htext hw', by simp, hnodup⟩
    | false =>
      rw [if_neg Bool.false_ne_true] at h
      obtain ⟨w', hw', rfl⟩ := listEnd_more.mp hend
      obtain ⟨body, members, hbody, rfl, hnodup⟩ := ih h
      refine ⟨_, (key, item) :: members, .cons hw htext hw' hbody, by simp [COMMA], ?_⟩
      rwa [List.append_assoc] at hnodup

/-- By induction on the row: the names seen so far and the names to come are distinct. -/
theorem objectLoop_total (hvalue : Total value V) {body : Bytes} {members : Members}
    (h : MembersText V body members) {fuel : Nat} {keys : List Bytes} {after : Bytes}
    (hfuel : body.length < fuel) (hnodup : (keys ++ members.map Prod.fst).Nodup) :
    objectLoop value fuel keys (body ++ RBRACE :: after) = .ok after := by
  induction h generalizing fuel keys with
  | @last w text w' member hw h hw' =>
    cases fuel with
    | zero => exact absurd hfuel (Nat.not_lt_zero _)
    | succ fuel =>
      have hstops : Stops (w' ++ RBRACE :: after) :=
        stops_blank hw' (stops_cons (by decide) (by decide))
      rw [objectLoop, bind_eq_ok]
      refine ⟨(member.1, w' ++ RBRACE :: after), ?_, ?_⟩
      · rw [List.append_assoc]
        exact objectMember_total hvalue hw h hstops
      · dsimp only
        rw [bind_eq_ok]
        refine ⟨(true, after), (listEnd_done (by decide) (by decide)).mpr ⟨w', hw', rfl⟩, ?_⟩
        dsimp only
        rw [if_pos rfl, bind_eq_ok]
        refine ⟨(), ?_, rfl⟩
        rw [rejectDuplicateKeys, rejectIf_eq_ok, not_not]
        exact hnodup
  | @cons w text w' rest member members hw h hw' hrest ih =>
    cases fuel with
    | zero => exact absurd hfuel (Nat.not_lt_zero _)
    | succ fuel =>
      have hstops : Stops (w' ++ COMMA :: (rest ++ RBRACE :: after)) :=
        stops_blank hw' (stops_cons (by decide) (by decide))
      simp only [List.length_append, List.length_cons] at hfuel
      rw [objectLoop, bind_eq_ok]
      refine ⟨(member.1, w' ++ COMMA :: (rest ++ RBRACE :: after)), ?_, ?_⟩
      · have hread := objectMember_total hvalue hw h hstops
        simp only [List.append_assoc, List.cons_append, List.nil_append, COMMA] at hread ⊢
        exact hread
      · dsimp only
        rw [bind_eq_ok]
        refine ⟨(false, rest ++ RBRACE :: after), listEnd_more.mpr ⟨w', hw', rfl⟩, ?_⟩
        dsimp only
        rw [if_neg Bool.false_ne_true]
        refine ih (by omega) ?_
        rwa [List.append_assoc]

/-- Skipping white space twice skips nothing more. -/
theorem ws_ws (rest : Bytes) : ws (ws rest) = ws rest := by
  obtain ⟨w, hw, hrest⟩ := ws_split rest
  conv_rhs => rw [hrest, ws_append hw]

/-- White space before a list of members makes no difference. -/
theorem objectLoop_ws (fuel : Nat) (keys : List Bytes) (rest : Bytes) :
    objectLoop value fuel keys (ws rest) = objectLoop value fuel keys rest := by
  cases fuel with
  | zero => rfl
  | succ fuel =>
    have hstring : string (ws rest) = string rest := by rw [string, string, byte, byte, ws_ws]
    rw [objectLoop, objectLoop, objectMember, objectMember, hstring]

theorem arrayLoop_ws (hvalue : ∀ rest, value (ws rest) = value rest) (fuel : Nat) (rest : Bytes) :
    arrayLoop value fuel (ws rest) = arrayLoop value fuel rest := by
  cases fuel with
  | zero => rfl
  | succ fuel => rw [arrayLoop, arrayLoop, hvalue]

/-- What stands in an object, up to its end. -/
theorem object_sound (hvalue : Sound value V) {rest after : Bytes}
    (h : object value rest = .ok after) :
    ∃ w, Blank w ∧ ((∃ w', Blank w' ∧ rest = w ++ LBRACE :: w' ++ RBRACE :: after) ∨
      ∃ body members, MembersText V body members ∧ (members.map Prod.fst).Nodup ∧
        rest = w ++ LBRACE :: body ++ RBRACE :: after) := by
  rw [object, bind_eq_ok] at h
  obtain ⟨opened, hopen, h⟩ := h
  obtain ⟨w, hw, rfl⟩ := (byte_ok (by decide)).mp hopen
  refine ⟨w, hw, ?_⟩
  obtain ⟨w', hw', hopened⟩ := ws_split opened
  split at h
  case h_1 closed hclosed =>
    cases h
    rw [consumeIf_eq_some] at hclosed
    exact .inl ⟨w', hw', by rw [hopened, hclosed]; simp⟩
  case h_2 =>
    rw [objectLoop_ws] at h
    obtain ⟨body, members, hbody, rfl, hnodup⟩ := objectLoop_sound hvalue h
    exact .inr ⟨body, members, hbody, hnodup, by simp⟩

/-- An accepted array is brackets around a row of values. -/
theorem array_sound (hvalue : Sound value V) (hws : ∀ rest, value (ws rest) = value rest)
    {rest after : Bytes} (h : array value rest = .ok after) :
    ∃ w, Blank w ∧ ((∃ w', Blank w' ∧ rest = w ++ LBRACKET :: w' ++ RBRACKET :: after) ∨
      ∃ body items, ItemsText V body items ∧ rest = w ++ LBRACKET :: body ++ RBRACKET :: after) := by
  rw [array, bind_eq_ok] at h
  obtain ⟨opened, hopen, h⟩ := h
  obtain ⟨w, hw, rfl⟩ := (byte_ok (by decide)).mp hopen
  refine ⟨w, hw, ?_⟩
  obtain ⟨w', hw', hopened⟩ := ws_split opened
  split at h
  case h_1 closed hclosed =>
    cases h
    rw [consumeIf_eq_some] at hclosed
    exact .inl ⟨w', hw', by rw [hopened, hclosed]; simp⟩
  case h_2 =>
    rw [arrayLoop_ws hws] at h
    obtain ⟨body, items, hbody, rfl⟩ := arrayLoop_sound hvalue h
    exact .inr ⟨body, items, hbody, by simp⟩

/-- An empty object may hold white space. -/
theorem object_empty {w after : Bytes} (hw : Blank w) :
    object value (LBRACE :: (w ++ RBRACE :: after)) = .ok after := by
  rw [object, bind_eq_ok]
  refine ⟨w ++ RBRACE :: after, (byte_ok (by decide)).mpr ⟨[], .nil, rfl⟩, ?_⟩
  rw [ws_blank_cons hw (by decide), consumeIf_self]
  rfl

theorem array_empty {w after : Bytes} (hw : Blank w) :
    array value (LBRACKET :: (w ++ RBRACKET :: after)) = .ok after := by
  rw [array, bind_eq_ok]
  refine ⟨w ++ RBRACKET :: after, (byte_ok (by decide)).mpr ⟨[], .nil, rfl⟩, ?_⟩
  rw [ws_blank_cons hw (by decide), consumeIf_self]
  rfl

/-- The first token of the members is a key. -/
theorem members_first {body : Bytes} {members : Members} (h : MembersText V body members)
    (after : Bytes) : ∃ rest, ws (body ++ after) = QUOTE :: rest := by
  have hmember : ∀ {w text : Bytes} {member : Bytes × Json}, Blank w → MemberText V text member →
      ∀ after, ∃ rest, ws (w ++ text ++ after) = QUOTE :: rest := by
    intro w text member hw htext after
    cases htext with
    | @intro w' key w'' inner item _ _ _ _ =>
      refine ⟨key ++ [QUOTE] ++ w' ++ [COLON] ++ w'' ++ inner ++ after, ?_⟩
      rw [List.append_assoc, ws_append hw]
      simp only [quoted, List.append_assoc, List.cons_append, List.nil_append]
      exact ws_cons (by decide) _
  cases h with
  | last hw htext _ =>
    rw [List.append_assoc]
    exact hmember hw htext _
  | cons hw htext _ _ =>
    simp only [List.append_assoc]
    rw [← List.append_assoc]
    exact hmember hw htext _

/-- Every object with distinct names is accepted. -/
theorem object_total (hvalue : Total value V) {body after : Bytes} {members : Members}
    (h : MembersText V body members) (hnodup : (members.map Prod.fst).Nodup) :
    object value (LBRACE :: (body ++ RBRACE :: after)) = .ok after := by
  rw [object, bind_eq_ok]
  refine ⟨body ++ RBRACE :: after, (byte_ok (by decide)).mpr ⟨[], .nil, rfl⟩, ?_⟩
  obtain ⟨rest, hfirst⟩ := members_first h (RBRACE :: after)
  have hopen : consumeIf RBRACE (ws (body ++ RBRACE :: after)) = none := by
    rw [hfirst]
    rfl
  rw [hopen]
  dsimp only
  rw [objectLoop_ws]
  refine objectLoop_total hvalue h ?_ hnodup
  rw [List.length_append, List.length_cons]
  omega

/-- The first byte of a value. -/
def StartsValue (V : Bytes → Json → Prop) : Prop :=
  ∀ text document, V text document →
    ∃ b rest, text = b :: rest ∧ isBlank b = false ∧ b ≠ RBRACKET

/-- A row of values starts with a byte that is not a closing bracket. -/
theorem items_first (hstart : StartsValue V) {body : Bytes} {items : List Json}
    (h : ItemsText V body items) (after : Bytes) :
    ∃ b rest, ws (body ++ after) = b :: rest ∧ b ≠ RBRACKET := by
  have hitem : ∀ {w text : Bytes} {item : Json}, Blank w → V text item →
      ∀ after, ∃ b rest, ws (w ++ text ++ after) = b :: rest ∧ b ≠ RBRACKET := by
    intro w text item hw htext after
    obtain ⟨b, rest, rfl, hb, hne⟩ := hstart text item htext
    refine ⟨b, rest ++ after, ?_, hne⟩
    rw [List.append_assoc, ws_append hw]
    exact ws_cons hb _
  cases h with
  | last hw htext _ =>
    rw [List.append_assoc]
    exact hitem hw htext _
  | cons hw htext _ _ =>
    simp only [List.append_assoc]
    rw [← List.append_assoc]
    exact hitem hw htext _

/-- Every array is accepted. -/
theorem array_total (hvalue : Total value V) (hws : ∀ rest, value (ws rest) = value rest)
    (hstart : StartsValue V) {body after : Bytes} {items : List Json} (h : ItemsText V body items) :
    array value (LBRACKET :: (body ++ RBRACKET :: after)) = .ok after := by
  rw [array, bind_eq_ok]
  refine ⟨body ++ RBRACKET :: after, (byte_ok (by decide)).mpr ⟨[], .nil, rfl⟩, ?_⟩
  obtain ⟨b, rest, hfirst, hne⟩ := items_first hstart h (RBRACKET :: after)
  have hopen : consumeIf RBRACKET (ws (body ++ RBRACKET :: after)) = none := by
    rw [hfirst, consumeIf, if_neg hne]
  have hnonempty : ∀ text item, V text item → text ≠ [] := by
    intro text item htext
    obtain ⟨b, rest, rfl, -⟩ := hstart text item htext
    exact List.cons_ne_nil _ _
  rw [hopen]
  dsimp only
  rw [arrayLoop_ws hws]
  refine arrayLoop_total hvalue hnonempty h ?_
  rw [List.length_append, List.length_cons]
  omega

end containers

/-! ## Values -/

/-- A text with at most `n` containers inside each other and no repeated key. -/
def Admitted (n : Nat) (text : Bytes) (document : Json) : Prop :=
  ValueText text document ∧ document.depth ≤ n ∧ document.KeysDistinct

/-- White space before a value makes no difference. -/
theorem value_ws (n : Nat) (rest : Bytes) : value n (ws rest) = value n rest := by
  cases n <;> rw [value, valueWith, valueWith, ws_ws]

/-- The first byte of a value tells its kind. -/
theorem startsValue (n : Nat) : StartsValue (Admitted n) := by
  intro text document h
  obtain ⟨htext, -⟩ := h
  cases htext with
  | null => exact ⟨_, _, rfl, by decide, by decide⟩
  | true => exact ⟨_, _, rfl, by decide, by decide⟩
  | false => exact ⟨_, _, rfl, by decide, by decide⟩
  | number hdigits =>
    cases text with
    | nil => exact absurd rfl hdigits.nonempty
    | cons b rest =>
      have hb := hdigits.isDigit b List.mem_cons_self
      simp only [Json.isDigit, decide_eq_true_eq] at hb
      refine ⟨b, rest, rfl, ?_, ?_⟩
      · simp only [isBlank, decide_eq_false_iff_not, not_or]
        grind
      · rw [RBRACKET]
        grind
  | string => exact ⟨_, _, rfl, by decide, by decide⟩
  | emptyArray => exact ⟨_, _, rfl, by decide, by decide⟩
  | array => exact ⟨_, _, rfl, by decide, by decide⟩
  | emptyObject => exact ⟨_, _, rfl, by decide, by decide⟩
  | object => exact ⟨_, _, rfl, by decide, by decide⟩

/-- A row is admitted when each of its values is. -/
theorem admitted_members {n : Nat} {body : Bytes} {members : Members} :
    MembersText (Admitted n) body members ↔ MembersText ValueText body members ∧
      ∀ member ∈ members, member.2.depth ≤ n ∧ member.2.KeysDistinct :=
  membersText_and

theorem admitted_items {n : Nat} {body : Bytes} {items : List Json} :
    ItemsText (Admitted n) body items ↔ ItemsText ValueText body items ∧
      ∀ item ∈ items, item.depth ≤ n ∧ item.KeysDistinct :=
  itemsText_and

/-- An object is one level deeper than its values. -/
theorem admitted_object {n : Nat} {body : Bytes} {members : Members}
    (h : MembersText (Admitted n) body members) (hnodup : (members.map Prod.fst).Nodup) :
    Admitted (n + 1) ([0x7b] ++ body ++ [0x7d]) (.object members) := by
  obtain ⟨hbody, hmembers⟩ := admitted_members.mp h
  refine ⟨.object hbody, Nat.succ_le_succ ?_, hnodup, ?_⟩
  · exact membersDepth_le.mpr fun member hmember => (hmembers member hmember).1
  · exact membersKeysDistinct_iff.mpr fun member hmember => (hmembers member hmember).2

theorem admitted_array {n : Nat} {body : Bytes} {items : List Json}
    (h : ItemsText (Admitted n) body items) :
    Admitted (n + 1) ([0x5b] ++ body ++ [0x5d]) (.array items) := by
  obtain ⟨hbody, hitems⟩ := admitted_items.mp h
  refine ⟨.array hbody, Nat.succ_le_succ ?_, ?_⟩
  · exact itemsDepth_le.mpr fun item hitem => (hitems item hitem).1
  · exact itemsKeysDistinct_iff.mpr fun item hitem => (hitems item hitem).2

/-- The reader of what stands inside a container, one level below. -/
structure Inner (n : Nat) (read : Bytes → Except JsonSyntaxError Bytes) : Prop where
  reads : ∃ m, n = m + 1 ∧ Sound read (Admitted m) ∧ Total read (Admitted m)
  ws : ∀ rest, read (Cursor.ws rest) = read rest

/-- One case for each kind of value. -/
theorem valueWith_sound {n : Nat}
    {inner : Except JsonSyntaxError (Bytes → Except JsonSyntaxError Bytes)}
    (hinner : ∀ read, inner = .ok read → Inner n read) : Sound (valueWith inner) (Admitted n) := by
  intro rest after h
  obtain ⟨w, hw, hrest⟩ := ws_split rest
  rw [valueWith] at h
  generalize ws rest = trimmed at h hrest
  subst hrest
  -- a value without items or members takes no level of nesting
  have hplain : ∀ {text : Bytes} {document : Json}, ValueText text document →
      document.depth = 0 → document.KeysDistinct → trimmed = text ++ after →
      ∃ w' text document, Blank w' ∧ Admitted n text document ∧
        w ++ trimmed = w' ++ text ++ after := by
    intro text document htext hdepth hkeys htrimmed
    exact ⟨w, text, document, hw, ⟨htext, hdepth ▸ Nat.zero_le n, hkeys⟩, by simp [htrimmed]⟩
  split at h
  case h_1 => cases h
  case h_2 b behind =>
    split at h
    case isTrue hb =>
      rw [bind_eq_ok] at h
      obtain ⟨read, hread, h⟩ := h
      obtain ⟨m, rfl, hsound, -⟩ := (hinner read hread).reads
      obtain ⟨w', hw', hempty | hmembers⟩ := object_sound hsound h
      · obtain ⟨w'', hw'', heq⟩ := hempty
        refine ⟨w ++ w', _, .object [], hw.append hw', ⟨.emptyObject hw'', Nat.succ_le_succ
          (Nat.zero_le _), List.nodup_nil, trivial⟩, ?_⟩
        rw [heq]
        simp [LBRACE, RBRACE]
      · obtain ⟨body, members, hbody, hnodup, heq⟩ := hmembers
        refine ⟨w ++ w', _, .object members, hw.append hw', admitted_object hbody hnodup, ?_⟩
        rw [heq]
        simp [LBRACE, RBRACE]
    case isFalse =>
      split at h
      case isTrue hb =>
        rw [bind_eq_ok] at h
        obtain ⟨read, hread, h⟩ := h
        obtain ⟨m, rfl, hsound, -⟩ := (hinner read hread).reads
        obtain ⟨w', hw', hempty | hitems⟩ := array_sound hsound (hinner read hread).ws h
        · obtain ⟨w'', hw'', heq⟩ := hempty
          refine ⟨w ++ w', _, .array [], hw.append hw', ⟨.emptyArray hw'', Nat.succ_le_succ
            (Nat.zero_le _), trivial⟩, ?_⟩
          rw [heq]
          simp [LBRACKET, RBRACKET]
        · obtain ⟨body, items, hbody, heq⟩ := hitems
          refine ⟨w ++ w', _, .array items, hw.append hw', admitted_array hbody, ?_⟩
          rw [heq]
          simp [LBRACKET, RBRACKET]
      case isFalse =>
        split at h
        case isTrue hb =>
          rw [bind_eq_ok] at h
          obtain ⟨read, hread, heq⟩ := h
          obtain ⟨content, afterString⟩ := read
          cases heq
          obtain ⟨w', hw', hcontent, heq⟩ := string_ok.mp hread
          refine ⟨w ++ w', _, .string content, hw.append hw',
            ⟨.string hcontent, Nat.zero_le n, trivial⟩, ?_⟩
          rw [heq]
          simp
        case isFalse =>
          split at h
          case isTrue hb =>
            have hhead : (b :: behind).head?.any isDigit = true := hb
            obtain ⟨digits, hdigits, heq⟩ := number_ok hhead h
            exact hplain (.number hdigits) rfl trivial heq
          case isFalse =>
            split at h
            case isTrue => exact hplain .true rfl trivial (literal_ok.mp h)
            case isFalse =>
              split at h
              case isTrue => exact hplain .false rfl trivial (literal_ok.mp h)
              case isFalse =>
                split at h
                case isTrue => exact hplain .null rfl trivial (literal_ok.mp h)
                case isFalse => cases h

/-- One case for each kind of value, told apart by the first byte. -/
theorem valueWith_total {n : Nat}
    {inner : Except JsonSyntaxError (Bytes → Except JsonSyntaxError Bytes)}
    (hinner : 0 < n → ∃ read, inner = .ok read ∧ Inner n read) :
    Total (valueWith inner) (Admitted n) := by
  intro w text document after hw h hstops
  obtain ⟨b, behind, hfirst, hb, -⟩ := startsValue n text document h
  obtain ⟨htext, hdepth, hkeys⟩ := h
  have htrimmed : ws (w ++ text ++ after) = text ++ after := by
    rw [List.append_assoc, ws_append hw, hfirst]
    exact ws_cons hb _
  have hscalar : ∀ {inner' : Except JsonSyntaxError (Bytes → Except JsonSyntaxError Bytes)},
      valueWith inner' (w ++ text ++ after) = valueWith inner' (text ++ after) := by
    intro inner'
    rw [valueWith, valueWith, htrimmed, hfirst, List.cons_append, ws_cons hb]
  rw [hscalar]
  clear hscalar htrimmed hw
  cases htext with
  | null => exact literal_ok.mpr rfl
  | true => exact literal_ok.mpr rfl
  | false => exact literal_ok.mpr rfl
  | number hdigits =>
    have hread := number_of_canonical hdigits hstops
    have hdigit : isDigit b = true := hdigits.isDigit b (hfirst ▸ List.mem_cons_self)
    have hrange := hdigit
    simp only [isDigit, decide_eq_true_eq] at hrange
    have hbrace : b ≠ LBRACE := by
      rintro rfl
      exact absurd hrange (by decide)
    have hbracket : b ≠ LBRACKET := by
      rintro rfl
      exact absurd hrange (by decide)
    have hquote : b ≠ QUOTE := by
      rintro rfl
      exact absurd hrange (by decide)
    rw [hfirst] at hread ⊢
    rw [List.cons_append] at hread ⊢
    rw [valueWith, ws_cons hb]
    dsimp only
    rw [if_neg hbrace, if_neg hbracket, if_neg hquote, if_pos hdigit]
    exact hread
  | @string s hs =>
    have hread : string (quoted s ++ after) = .ok (s, after) :=
      string_ok.mpr ⟨[], .nil, hs, rfl⟩
    exact bind_eq_ok.mpr ⟨(s, after), hread, rfl⟩
  | @emptyArray w hw =>
    obtain ⟨read, hread, -⟩ := hinner (Nat.lt_of_lt_of_le (Nat.succ_pos _) hdepth)
    rw [List.append_assoc, List.append_assoc]
    exact bind_eq_ok.mpr ⟨read, hread, array_empty hw⟩
  | @array body items hbody =>
    obtain ⟨read, hread, hinner⟩ := hinner (Nat.lt_of_lt_of_le (Nat.succ_pos _) hdepth)
    obtain ⟨m, rfl, -, htotal⟩ := hinner.reads
    have hadmitted : ItemsText (Admitted m) body items := by
      refine admitted_items.mpr ⟨hbody, fun item hitem => ⟨?_, ?_⟩⟩
      · exact itemsDepth_le.mp (Nat.le_of_succ_le_succ hdepth) item hitem
      · exact itemsKeysDistinct_iff.mp hkeys item hitem
    rw [List.append_assoc, List.append_assoc]
    exact bind_eq_ok.mpr ⟨read, hread, array_total htotal hinner.ws (startsValue m) hadmitted⟩
  | @emptyObject w hw =>
    obtain ⟨read, hread, -⟩ := hinner (Nat.lt_of_lt_of_le (Nat.succ_pos _) hdepth)
    rw [List.append_assoc, List.append_assoc]
    exact bind_eq_ok.mpr ⟨read, hread, object_empty hw⟩
  | @object body members hbody =>
    obtain ⟨read, hread, hinner⟩ := hinner (Nat.lt_of_lt_of_le (Nat.succ_pos _) hdepth)
    obtain ⟨m, rfl, -, htotal⟩ := hinner.reads
    have hadmitted : MembersText (Admitted m) body members := by
      refine admitted_members.mpr ⟨hbody, fun member hmember => ⟨?_, ?_⟩⟩
      · exact membersDepth_le.mp (Nat.le_of_succ_le_succ hdepth) member hmember
      · exact membersKeysDistinct_iff.mp hkeys.2 member hmember
    rw [List.append_assoc, List.append_assoc]
    exact bind_eq_ok.mpr ⟨read, hread, object_total htotal hadmitted hkeys.1⟩

/-- The reader takes exactly the texts of the grammar. -/
theorem value_reads (n : Nat) : Sound (value n) (Admitted n) ∧ Total (value n) (Admitted n) := by
  induction n with
  | zero =>
    refine ⟨valueWith_sound fun read hread => ?_, valueWith_total fun hpos => ?_⟩
    · cases hread
    · exact absurd hpos (Nat.lt_irrefl 0)
  | succ n ih =>
    have hinner : Inner (n + 1) (value n) := ⟨⟨n, rfl, ih.1, ih.2⟩, value_ws n⟩
    refine ⟨valueWith_sound fun read hread => ?_, valueWith_total fun _ => ⟨_, rfl, hinner⟩⟩
    cases hread
    exact hinner

/-- A reader that takes a text shortens what is left. -/
theorem value_shortens {n : Nat} {rest after : Bytes} (h : value n rest = .ok after) :
    after.length < rest.length := by
  obtain ⟨w, text, document, -, htext, rfl⟩ := (value_reads n).1 rest after h
  obtain ⟨b, behind, rfl, -⟩ := startsValue n text document htext
  simp only [List.length_append, List.length_cons]
  omega

/-! ## The loops come to an end -/

section fuel

variable {value : Bytes → Except JsonSyntaxError Bytes}

/-- Each item and each member takes at least one byte. -/
structure Shortens (value : Bytes → Except JsonSyntaxError Bytes) : Prop where
  shorter : ∀ {rest after}, value rest = .ok after → after.length < rest.length
  empty : value [] = .error .unexpectedToken

/-- Reading takes at least one byte, so that the length of the input is fuel enough. -/
theorem listEnd_shorter {close : UInt8} {rest after : Bytes} {ended : Bool}
    (h : listEnd close rest = .ok (ended, after)) : after.length < rest.length := by
  obtain ⟨w, hw, hrest⟩ := ws_split rest
  have hlen := congrArg List.length hrest
  rw [List.length_append] at hlen
  rw [listEnd] at h
  split at h
  case h_1 next hconsume =>
    cases h
    rw [consumeIf_eq_some.mp hconsume, List.length_cons] at hlen
    omega
  case h_2 =>
    split at h
    case h_1 next hconsume =>
      cases h
      rw [consumeIf_eq_some.mp hconsume, List.length_cons] at hlen
      omega
    case h_2 => cases h

/-- Beyond the number of bytes left, more fuel makes no difference. -/
theorem arrayLoop_fuel (hvalue : Shortens value) {fuel : Nat} (extra : Nat) {rest : Bytes}
    (h : rest.length ≤ fuel) : arrayLoop value (fuel + extra) rest = arrayLoop value fuel rest := by
  induction fuel generalizing rest with
  | zero =>
    rw [List.length_eq_zero_iff.mp (Nat.le_zero.mp h)]
    cases extra with
    | zero => rfl
    | succ extra =>
      change (value [] >>= _) = _
      rw [hvalue.empty]
      rfl
  | succ fuel ih =>
    rw [Nat.add_right_comm, arrayLoop, arrayLoop]
    cases hitem : value rest with
    | error error => rfl
    | ok after =>
      have hless := hvalue.shorter hitem
      change (listEnd RBRACKET after >>= _) = (listEnd RBRACKET after >>= _)
      cases hend : listEnd RBRACKET after with
      | error error => rfl
      | ok listed =>
        obtain ⟨ended, behind⟩ := listed
        have hless' := listEnd_shorter hend
        cases ended with
        | true => rfl
        | false => exact ih (by omega)

/-- The same of a member. -/
theorem objectMember_shorter (hvalue : Shortens value) {rest key after : Bytes}
    (h : objectMember value rest = .ok (key, after)) : after.length < rest.length := by
  rw [objectMember, bind_eq_ok] at h
  obtain ⟨named, hname, h⟩ := h
  obtain ⟨name, afterName⟩ := named
  rw [bind_eq_ok] at h
  obtain ⟨afterColon, hcolon, h⟩ := h
  rw [bind_eq_ok] at h
  obtain ⟨afterValue, hitem, h⟩ := h
  cases h
  obtain ⟨w, hw, hkey, rfl⟩ := string_ok.mp hname
  obtain ⟨w', hw', rfl⟩ := (byte_ok (by decide)).mp hcolon
  have hless := hvalue.shorter hitem
  simp only [List.length_append, List.length_cons]
  omega

/-- More fuel than bytes changes nothing. -/
theorem objectLoop_fuel (hvalue : Shortens value) {fuel : Nat} (extra : Nat) {keys : List Bytes}
    {rest : Bytes} (h : rest.length ≤ fuel) :
    objectLoop value (fuel + extra) keys rest = objectLoop value fuel keys rest := by
  induction fuel generalizing keys rest with
  | zero =>
    rw [List.length_eq_zero_iff.mp (Nat.le_zero.mp h)]
    cases extra with
    | zero => rfl
    | succ extra => rfl
  | succ fuel ih =>
    rw [Nat.add_right_comm, objectLoop, objectLoop]
    cases hmember : objectMember value rest with
    | error error => rfl
    | ok read =>
      obtain ⟨key, after⟩ := read
      have hless := objectMember_shorter hvalue hmember
      change (listEnd RBRACE after >>= _) = (listEnd RBRACE after >>= _)
      cases hend : listEnd RBRACE after with
      | error error => rfl
      | ok listed =>
        obtain ⟨ended, behind⟩ := listed
        have hless' := listEnd_shorter hend
        cases ended with
        | true => rfl
        | false => exact ih (by omega)

end fuel

/-- The same of a value, at every depth. -/
theorem shortens_value (n : Nat) : Shortens (value n) where
  shorter := value_shortens
  empty := by cases n <;> rfl

end Cursor

/-- The whole check, through its reader. -/
theorem validateCanonicalJson_ok {input : Bytes} :
    validateCanonicalJson input = .ok () ↔
      ∃ document, DocumentText input document ∧ document.depth ≤ MAX_JSON_NESTING ∧
        document.KeysDistinct := by
  refine ⟨fun h => ?_, fun h => ?_⟩
  · rw [validateCanonicalJson, bind_eq_ok] at h
    obtain ⟨rest, hvalue, hend⟩ := h
    rw [rejectIf_eq_ok, not_not] at hend
    obtain ⟨w, text, document, hw, htext, rfl⟩ := (Cursor.value_reads _).1 _ _ hvalue
    obtain ⟨w', hw', hrest⟩ := Cursor.ws_split rest
    rw [hend, List.append_nil] at hrest
    subst hrest
    exact ⟨document, ⟨w, text, rest, rfl, hw, htext.1, hw'⟩, htext.2⟩
  · obtain ⟨document, htext, hbounds⟩ := h
    obtain ⟨w, body, w', rfl, hw, hbody, hw'⟩ := htext
    have hstops : Cursor.Stops (w' ++ []) := Cursor.stops_blank hw' fun b hb => by cases hb
    rw [List.append_nil] at hstops
    rw [validateCanonicalJson, bind_eq_ok]
    refine ⟨w', (Cursor.value_reads _).2 w body document w' hw ⟨hbody, hbounds⟩ hstops, ?_⟩
    rw [rejectIf_eq_ok, not_not]
    have hblank := Cursor.ws_append hw' []
    rwa [List.append_nil] at hblank

end KaspaPortal.Transaction.Pskt
