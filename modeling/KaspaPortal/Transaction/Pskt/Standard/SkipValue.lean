import KaspaPortal.Transaction.Pskt.JsonReader
import KaspaPortal.Transaction.Pskt.Standard.Tokenizer

/-!
# Skipping and the grammar

The state machine that skips a value, run over the text of a document of the grammar.
-/
namespace KaspaPortal.Transaction.Pskt.Standard
open Lib Lib.Json

/-! ## Tokens of the grammar -/

namespace Tokenizer

theorem nextToken_blank {w : Bytes} (hw : Blank w) (rest : Bytes) :
    nextToken (w ++ rest) = nextToken rest := by
  have hskip : skipWs (w ++ rest) = skipWs rest := List.dropWhile_append_of_pos hw
  rw [nextToken, nextToken, hskip]

theorem readString_plain {s : Bytes} (hs : Plain s) (content rest : Bytes) :
    readString content (s ++ Cursor.QUOTE :: rest) = .ok (.str (content ++ s), rest) := by
  induction s generalizing content with
  | nil =>
    rw [List.append_nil]
    rfl
  | cons c s ih =>
    have hc := hs c List.mem_cons_self
    simp only [Json.isPlain, decide_eq_true_eq] at hc
    have hquote : c ≠ Cursor.QUOTE := hc.2.2.1
    have hbackslash : c ≠ Cursor.BACKSLASH := hc.2.2.2
    rw [List.cons_append, readString, if_neg hquote, if_neg,
      ih (fun b hb => hs b (List.mem_cons_of_mem _ hb)), List.append_assoc]
    · rfl
    · rw [not_or, not_not]
      exact ⟨hbackslash, hc.1, hc.2.1⟩

theorem nextToken_string {s : Bytes} (hs : Plain s) (rest : Bytes) :
    nextToken (quoted s ++ rest) = .ok (.str s, rest) := by
  have htext : quoted s ++ rest = Cursor.QUOTE :: (s ++ Cursor.QUOTE :: rest) := by
    simp [quoted, Cursor.QUOTE]
  rw [htext, nextToken_cons (by decide)]
  exact readString_plain hs [] rest

theorem nextToken_number {digits rest : Bytes} (h : Canonical digits)
    (hstops : Cursor.Stops rest) : nextToken (digits ++ rest) = .ok (.num digits, rest) := by
  obtain ⟨hnonempty, hdigits, hzero⟩ := h
  cases digits with
  | nil => exact absurd rfl hnonempty
  | cons b digits =>
    have hb : Cursor.isDigit b = true := hdigits b List.mem_cons_self
    have hrange := hb
    simp only [Cursor.isDigit, decide_eq_true_eq] at hrange
    have hother : ∀ c : UInt8, ¬(0x30 ≤ c ∧ c ≤ 0x39) → b ≠ c := by
      intro c hc heq
      exact hc (heq ▸ hrange)
    have hblank : Cursor.isBlank b = false := by
      simp only [Cursor.isBlank, decide_eq_false_iff_not, not_or]
      exact ⟨hother _ (by decide), hother _ (by decide), hother _ (by decide), hother _ (by decide)⟩
    have hpunctuation : punctuation b = none := by
      rw [punctuation, if_neg (hother _ (by decide)), if_neg (hother _ (by decide)),
        if_neg (hother _ (by decide)), if_neg (hother _ (by decide)), if_neg (hother _ (by decide)),
        if_neg (hother _ (by decide))]
    have hquote : b ≠ Cursor.QUOTE := hother _ (by decide)
    have hrest : rest.takeWhile Cursor.isDigit = [] ∧ rest.dropWhile Cursor.isDigit = rest := by
      cases rest with
      | nil => exact ⟨rfl, rfl⟩
      | cons c rest =>
        have hc := (hstops c rfl).1
        exact ⟨List.takeWhile_cons_of_neg (by rw [hc]; exact Bool.false_ne_true),
          List.dropWhile_cons_of_neg (by rw [hc]; exact Bool.false_ne_true)⟩
    rw [List.cons_append, nextToken_cons hblank, hpunctuation]
    dsimp only
    rw [if_neg hquote, if_pos hb, readNumber]
    by_cases hfirst : b = 0x30
    · have hone := hzero (congrArg some hfirst)
      have hnil : digits = [] := by
        rw [List.length_cons] at hone
        exact List.length_eq_zero_iff.mp (by omega)
      rw [if_pos hfirst, hnil, List.nil_append, if_neg]
      cases rest with
      | nil => exact Bool.false_ne_true
      | cons c rest =>
        change ¬ Cursor.isDigit c = true
        rw [(hstops c rfl).1]
        exact Bool.false_ne_true
    · have htail : ∀ c ∈ digits, Cursor.isDigit c = true :=
        fun c hc => hdigits c (List.mem_cons_of_mem _ hc)
      rw [if_neg hfirst, List.takeWhile_append_of_pos htail, List.dropWhile_append_of_pos htail,
        hrest.1, hrest.2, List.append_nil]
      dsimp only
      rw [if_neg]
      cases rest with
      | nil => exact Bool.false_ne_true
      | cons c rest =>
        have hc := (hstops c rfl).2
        simp only [Cursor.continuesNumber, decide_eq_false_iff_not] at hc
        simp only [List.head?_cons, Option.any_some, decide_eq_true_eq]
        exact fun hcontinues => hc (by tauto)

theorem readKeyword_self (expected : Bytes) (tok : Tok) (rest : Bytes) :
    readKeyword expected tok (expected ++ rest) = .ok (tok, rest) := by
  rw [readKeyword, if_neg, if_neg, List.drop_left]
  · rw [List.take_left, not_not]
  · rw [List.length_append]
    omega

/-- Every token but the end takes a byte. -/
theorem nextToken_shorter {rest after : Bytes} {token : Tok} (htoken : token ≠ .eof)
    (h : nextToken rest = .ok (token, after)) : after.length < rest.length := by
  have hskip : (skipWs rest).length ≤ rest.length := (List.dropWhile_sublist _).length_le
  -- every token but the end takes at least the byte that starts it
  have hstring : ∀ {s content : Bytes}, readString content s = .ok (token, after) →
      after.length < s.length := by
    intro s
    induction s with
    | nil =>
      intro content hs
      cases hs
    | cons c s ih =>
      intro content hs
      rw [readString] at hs
      split at hs
      case isTrue =>
        cases hs
        exact Nat.lt_succ_self _
      case isFalse =>
        split at hs
        case isTrue => cases hs
        case isFalse => exact Nat.lt_succ_of_lt (ih hs)
  have hkeyword : ∀ {expected s : Bytes} {tok : Tok}, 0 < expected.length →
      readKeyword expected tok s = .ok (token, after) → after.length < s.length := by
    intro expected s tok hpos hs
    rw [readKeyword] at hs
    split at hs
    case isTrue => cases hs
    case isFalse hlen =>
      split at hs
      case isTrue => cases hs
      case isFalse =>
        cases hs
        rw [List.length_drop]
        omega
  rw [nextToken] at h
  generalize skipWs rest = trimmed at h hskip
  refine Nat.lt_of_lt_of_le ?_ hskip
  split at h
  case h_1 =>
    cases h
    exact absurd rfl htoken
  case h_2 b behind =>
    split at h
    case h_1 =>
      cases h
      exact Nat.lt_succ_self _
    case h_2 =>
      split at h
      case isTrue => exact Nat.lt_succ_of_lt (hstring h)
      case isFalse =>
        split at h
        case isTrue =>
          have hdrop : (behind.dropWhile Cursor.isDigit).length ≤ behind.length :=
            (List.dropWhile_sublist _).length_le
          rw [readNumber] at h
          split at h
          case isTrue =>
            split at h
            case isTrue => cases h
            case isFalse =>
              cases h
              exact Nat.lt_succ_self _
          case isFalse =>
            dsimp only at h
            split at h
            case isTrue => cases h
            case isFalse =>
              cases h
              exact Nat.lt_succ_of_le hdrop
        case isFalse =>
          split at h
          case isTrue => exact hkeyword (by decide) h
          case isFalse =>
            split at h
            case isTrue => exact hkeyword (by decide) h
            case isFalse =>
              split at h
              case isTrue => exact hkeyword (by decide) h
              case isFalse => cases h

end Tokenizer

/-! ## The loop -/

theorem nextContainerToken_token {rest after : Bytes} {token : Tok} (htoken : token ≠ .eof)
    (h : Tokenizer.nextToken rest = .ok (token, after)) :
    nextContainerToken rest = .ok (token, after) := by
  rw [nextContainerToken, h]
  cases token with
  | eof => exact absurd rfl htoken
  | _ => rfl

theorem nextContainerToken_ok {rest after : Bytes} {token : Tok}
    (h : nextContainerToken rest = .ok (token, after)) : after.length < rest.length := by
  rw [nextContainerToken] at h
  split at h
  case h_1 => cases h
  case h_2 => cases h
  case h_3 token' after' hne hnext =>
    cases h
    exact Tokenizer.nextToken_shorter (fun heof => hne heof) hnext

/-- Fuel beyond the bytes left changes nothing. -/
theorem skipContainers_fuel {fuel : Nat} (extra : Nat) {stack : List ContainerState} {rest : Bytes}
    (h : rest.length ≤ fuel) :
    skipContainers (fuel + extra) stack rest = skipContainers fuel stack rest := by
  induction fuel generalizing stack rest with
  | zero =>
    have hrest : rest = [] := List.length_eq_zero_iff.mp (by omega)
    subst hrest
    cases stack with
    | nil => simp only [skipContainers]
    | cons state below =>
      cases extra with
      | zero => rfl
      | succ extra => rfl
  | succ fuel ih =>
    cases stack with
    | nil => simp only [skipContainers]
    | cons state below =>
      rw [Nat.add_right_comm, skipContainers, skipContainers]
      cases hnext : nextContainerToken rest with
      | error error => rfl
      | ok next =>
        have hshorter := nextContainerToken_ok hnext
        dsimp only
        cases processContainerToken state next.1 below with
        | error error => rfl
        | ok stack => exact ih (by omega)

/-- The loop with the fuel it has. -/
def skipFrom (stack : List ContainerState) (rest : Bytes) : Except PskError Bytes :=
  skipContainers rest.length stack rest

theorem skipFrom_nil (rest : Bytes) : skipFrom [] rest = .ok rest := by
  rw [skipFrom, skipContainers]

theorem skipFrom_token {state : ContainerState} {below stack : List ContainerState}
    {rest after : Bytes} {token : Tok} (htoken : token ≠ .eof)
    (hnext : Tokenizer.nextToken rest = .ok (token, after))
    (hprocess : processContainerToken state token below = .ok stack) :
    skipFrom (state :: below) rest = skipFrom stack after := by
  have hnext' := nextContainerToken_token htoken hnext
  have hshorter := nextContainerToken_ok hnext'
  obtain ⟨extra, hextra⟩ := Nat.exists_eq_add_of_lt hshorter
  rw [skipFrom, hextra, skipContainers, hnext']
  dsimp only
  rw [hprocess]
  exact skipContainers_fuel extra le_rfl

theorem skipFrom_error {state : ContainerState} {below : List ContainerState} {rest after : Bytes}
    {token : Tok} {error : PskError} (htoken : token ≠ .eof)
    (hnext : Tokenizer.nextToken rest = .ok (token, after))
    (hprocess : processContainerToken state token below = .error error) :
    skipFrom (state :: below) rest = .error error := by
  have hnext' := nextContainerToken_token htoken hnext
  have hshorter := nextContainerToken_ok hnext'
  obtain ⟨extra, hextra⟩ := Nat.exists_eq_add_of_lt hshorter
  rw [skipFrom, hextra, skipContainers, hnext']
  dsimp only
  rw [hprocess]

/-! ## Where a value starts -/

/-- A token that is a whole value, and whether its number fits. -/
inductive Atom : Tok → Bool → Prop
  | str (content : Bytes) : Atom (.str content) true
  | true : Atom .true true
  | false : Atom .false true
  | null : Atom .null true
  | num {digits : Bytes} (h : Canonical digits) :
    Atom (.num digits) (decide (digitsValue digits < 2 ^ 64))

theorem Atom.ne_eof {token : Tok} {fits : Bool} (h : Atom token fits) : token ≠ .eof := by
  cases h <;> exact fun heq => Tok.noConfusion heq

theorem Atom.ne_rBracket {token : Tok} {fits : Bool} (h : Atom token fits) :
    token ≠ .rBracket := by
  cases h <;> exact fun heq => Tok.noConfusion heq

theorem parseU64Num_canonical {digits : Bytes} (h : Canonical digits) :
    parseU64Num digits =
      if digitsValue digits < 2 ^ 64 then .ok (UInt64.ofNat (digitsValue digits))
      else .error .unexpectedToken := by
  have hdecimal : decimal digits = digitsValue digits := rfl
  rw [parseU64Num, parseCanonicalU64Bytes, rejectIf_neg (canonical_iff.mpr h), hdecimal]
  by_cases hfits : digitsValue digits < 2 ^ 64
  · rw [if_pos hfits, rejectIf_neg (Nat.not_le.mpr hfits)]
    rfl
  · rw [if_neg hfits, rejectIf_pos (Nat.not_lt.mp hfits)]
    rfl

/-- What stands between the brackets of an array. -/
def ItemsBody (body : Bytes) (items : List Json) : Prop :=
  (items = [] ∧ Blank body) ∨ ItemsText ValueText body items

/-- What stands between the braces of an object. -/
def MembersBody (body : Bytes) (members : Members) : Prop :=
  (members = [] ∧ Blank body) ∨ MembersText ValueText body members

/-- The first token of a value, and what it leaves. -/
inductive Starts (rest : Bytes) : Json → Bytes → Prop
  | atom {token : Tok} {value : Json} {post : Bytes}
    (hnext : Tokenizer.nextToken rest = .ok (token, post))
    (hatom : Atom token (value.numbersBelow (2 ^ 64))) : Starts rest value post
  | array (body : Bytes) {post : Bytes} {items : List Json}
    (hnext : Tokenizer.nextToken rest = .ok (.lBracket, body ++ [0x5d] ++ post))
    (hbody : ItemsBody body items) : Starts rest (.array items) post
  | object (body : Bytes) {post : Bytes} {members : Members}
    (hnext : Tokenizer.nextToken rest = .ok (.lBrace, body ++ [0x7d] ++ post))
    (hbody : MembersBody body members) : Starts rest (.object members) post

theorem nextToken_punctuation {b : UInt8} (token : Tok)
    (hb : Tokenizer.punctuation b = some token) (hblank : Cursor.isBlank b = false) {w : Bytes}
    (hw : Blank w) (rest : Bytes) : Tokenizer.nextToken (w ++ b :: rest) = .ok (token, rest) := by
  rw [Tokenizer.nextToken_blank hw, Tokenizer.nextToken_cons hblank, hb]

theorem nextToken_keyword {w post : Bytes} (hw : Blank w) :
    Tokenizer.nextToken (w ++ ascii "null" ++ post) = .ok (.null, post) ∧
      Tokenizer.nextToken (w ++ ascii "true" ++ post) = .ok (.true, post) ∧
        Tokenizer.nextToken (w ++ ascii "false" ++ post) = .ok (.false, post) := by
  refine ⟨?_, ?_, ?_⟩
  · rw [List.append_assoc, Tokenizer.nextToken_blank hw]
    exact (Tokenizer.nextToken_cons (by decide) _).trans
      (Tokenizer.readKeyword_self (ascii "null") .null post)
  · rw [List.append_assoc, Tokenizer.nextToken_blank hw]
    exact (Tokenizer.nextToken_cons (by decide) _).trans
      (Tokenizer.readKeyword_self (ascii "true") .true post)
  · rw [List.append_assoc, Tokenizer.nextToken_blank hw]
    exact (Tokenizer.nextToken_cons (by decide) _).trans
      (Tokenizer.readKeyword_self (ascii "false") .false post)

theorem starts_of_valueText {text : Bytes} {value : Json} (h : ValueText text value) {w post : Bytes}
    (hw : Blank w) (hstops : Cursor.Stops post) : Starts (w ++ text ++ post) value post := by
  cases h with
  | null => exact .atom (nextToken_keyword hw).1 .null
  | true => exact .atom (nextToken_keyword hw).2.1 .true
  | false => exact .atom (nextToken_keyword hw).2.2 .false
  | number h =>
    refine .atom ?_ (.num h)
    rw [List.append_assoc, Tokenizer.nextToken_blank hw, Tokenizer.nextToken_number h hstops]
  | @string s h =>
    refine .atom ?_ (.str s)
    rw [List.append_assoc, Tokenizer.nextToken_blank hw, Tokenizer.nextToken_string h]
  | @emptyArray body hbody =>
    refine .array body ?_ (.inl ⟨rfl, hbody⟩)
    have htext : w ++ ([0x5b] ++ body ++ [0x5d]) ++ post = w ++ 0x5b :: (body ++ [0x5d] ++ post) := by
      simp
    rw [htext]
    exact nextToken_punctuation _ rfl (by decide) hw _
  | @array body items h =>
    refine .array body ?_ (.inr h)
    have htext : w ++ ([0x5b] ++ body ++ [0x5d]) ++ post = w ++ 0x5b :: (body ++ [0x5d] ++ post) := by
      simp
    rw [htext]
    exact nextToken_punctuation _ rfl (by decide) hw _
  | @emptyObject body hbody =>
    refine .object body ?_ (.inl ⟨rfl, hbody⟩)
    have htext : w ++ ([0x7b] ++ body ++ [0x7d]) ++ post = w ++ 0x7b :: (body ++ [0x7d] ++ post) := by
      simp
    rw [htext]
    exact nextToken_punctuation _ rfl (by decide) hw _
  | @object body members h =>
    refine .object body ?_ (.inr h)
    have htext : w ++ ([0x7b] ++ body ++ [0x7d]) ++ post = w ++ 0x7b :: (body ++ [0x7d] ++ post) := by
      simp
    rw [htext]
    exact nextToken_punctuation _ rfl (by decide) hw _

/-! ## Containers -/

/-- A state that takes a value, and the state behind the value. -/
inductive Expects : ContainerState → ContainerState → Prop
  | objectValue : Expects .objectValue .objectCommaOrEnd
  | arrayValue : Expects .arrayValue .arrayCommaOrEnd
  | arrayValueOrEnd : Expects .arrayValueOrEnd .arrayCommaOrEnd

theorem Expects.process {state next : ContainerState} (h : Expects state next) (token : Tok)
    (htoken : token ≠ .rBracket) (below : List ContainerState) :
    processContainerToken state token below = processNestedValue token next below := by
  cases h with
  | objectValue => rfl
  | arrayValue => rfl
  | arrayValueOrEnd =>
    cases token with
    | rBracket => exact absurd rfl htoken
    | _ => rfl

theorem Atom.process {token : Tok} {fits : Bool} (h : Atom token fits) (next : ContainerState)
    (below : List ContainerState) :
    processNestedValue token next below =
      if fits then .ok (next :: below) else .error .unexpectedToken := by
  cases h with
  | @num digits h =>
    rw [processNestedValue, parseU64Num_canonical h]
    by_cases hfits : digitsValue digits < 2 ^ 64
    · rw [if_pos hfits, if_pos (decide_eq_true hfits)]
    · rw [if_neg hfits, if_neg (by rw [decide_eq_true_eq]; exact hfits)]
  | _ => rfl

/-- The loop passes over a value, wherever one is expected and the stack has room. -/
def Skips (text : Bytes) (value : Json) : Prop :=
  ∀ {state next : ContainerState} {below : List ContainerState} {w post : Bytes},
    Expects state next → below.length + 1 + value.depth ≤ MAX_JSON_NESTING → Blank w →
      Cursor.Stops post →
        skipFrom (state :: below) (w ++ text ++ post) =
          if value.numbersBelow (2 ^ 64) then skipFrom (next :: below) post
          else .error .unexpectedToken

theorem stops_comma (rest : Bytes) : Cursor.Stops (0x2c :: rest) :=
  Cursor.stops_cons (by decide) (by decide)

theorem stops_rBracket (rest : Bytes) : Cursor.Stops (0x5d :: rest) :=
  Cursor.stops_cons (by decide) (by decide)

theorem stops_rBrace (rest : Bytes) : Cursor.Stops (0x7d :: rest) :=
  Cursor.stops_cons (by decide) (by decide)

/-- The loop passes over the items of an array and its bracket. -/
theorem skipFrom_items {V : Bytes → Json → Prop} (hskips : ∀ text item, V text item → Skips text item)
    {body : Bytes} {items : List Json} (h : ItemsText V body items) {state : ContainerState}
    (hstate : Expects state .arrayCommaOrEnd) {below : List ContainerState}
    (hroom : below.length + 1 + itemsDepth items ≤ MAX_JSON_NESTING) (post : Bytes) :
    skipFrom (state :: below) (body ++ [0x5d] ++ post) =
      if itemsNumbersBelow (2 ^ 64) items then skipFrom below post
      else .error .unexpectedToken := by
  induction h generalizing state with
  | @last w text w' item hw h hw' =>
    rw [itemsDepth, itemsDepth, Nat.max_zero] at hroom
    have hstops : Cursor.Stops (w' ++ 0x5d :: post) := Cursor.stops_blank hw' (stops_rBracket post)
    have htext : w ++ text ++ w' ++ [0x5d] ++ post = w ++ text ++ (w' ++ 0x5d :: post) := by simp
    have hclose : skipFrom (.arrayCommaOrEnd :: below) (w' ++ 0x5d :: post) = skipFrom below post :=
      skipFrom_token (fun h => Tok.noConfusion h)
        (nextToken_punctuation .rBracket rfl (by decide) hw' post) rfl
    rw [htext, hskips text item h hstate hroom hw hstops, hclose, itemsNumbersBelow,
      itemsNumbersBelow, Bool.and_true]
  | @cons w text w' rest item items hw h hw' hrest ih =>
    rw [itemsDepth] at hroom
    have hstops : Cursor.Stops (w' ++ 0x2c :: (rest ++ [0x5d] ++ post)) :=
      Cursor.stops_blank hw' (stops_comma _)
    have htext : w ++ text ++ w' ++ [0x2c] ++ rest ++ [0x5d] ++ post =
        w ++ text ++ (w' ++ 0x2c :: (rest ++ [0x5d] ++ post)) := by simp
    have hcomma : skipFrom (.arrayCommaOrEnd :: below) (w' ++ 0x2c :: (rest ++ [0x5d] ++ post)) =
        skipFrom (.arrayValue :: below) (rest ++ [0x5d] ++ post) :=
      skipFrom_token (fun h => Tok.noConfusion h)
        (nextToken_punctuation .comma rfl (by decide) hw' _) rfl
    rw [htext, hskips text item h hstate (by omega) hw hstops, hcomma,
      ih .arrayValue (by omega), itemsNumbersBelow]
    cases item.numbersBelow (2 ^ 64) <;> rfl

/-- A state that takes a key. -/
inductive ExpectsKey : ContainerState → Prop
  | objectKey : ExpectsKey .objectKey
  | objectKeyOrEnd : ExpectsKey .objectKeyOrEnd

theorem skipFrom_member {V : Bytes → Json → Prop}
    (hskips : ∀ text item, V text item → Skips text item) {text : Bytes} {member : Bytes × Json}
    (h : MemberText V text member) {state : ContainerState} (hstate : ExpectsKey state)
    {below : List ContainerState}
    (hroom : below.length + 1 + member.2.depth ≤ MAX_JSON_NESTING) {w post : Bytes} (hw : Blank w)
    (hstops : Cursor.Stops post) :
    skipFrom (state :: below) (w ++ text ++ post) =
      if member.2.numbersBelow (2 ^ 64) then skipFrom (.objectCommaOrEnd :: below) post
      else .error .unexpectedToken := by
  cases h with
  | @intro v key v' body item hv hkey hv' h =>
    have htext : w ++ (quoted key ++ v ++ [0x3a] ++ v' ++ body) ++ post =
        w ++ (quoted key ++ (v ++ 0x3a :: (v' ++ body ++ post))) := by simp
    have hnext : Tokenizer.nextToken (w ++ (quoted key ++ (v ++ 0x3a :: (v' ++ body ++ post)))) =
        .ok (.str key, v ++ 0x3a :: (v' ++ body ++ post)) := by
      rw [Tokenizer.nextToken_blank hw, Tokenizer.nextToken_string hkey]
    have hprocess : processContainerToken state (.str key) below = .ok (.objectColon :: below) := by
      cases hstate <;> rfl
    have hcolon : skipFrom (.objectColon :: below) (v ++ 0x3a :: (v' ++ body ++ post)) =
        skipFrom (.objectValue :: below) (v' ++ body ++ post) :=
      skipFrom_token (fun h => Tok.noConfusion h)
        (nextToken_punctuation .colon rfl (by decide) hv _) rfl
    rw [htext, skipFrom_token (fun h => Tok.noConfusion h) hnext hprocess, hcolon,
      hskips body item h .objectValue hroom hv' hstops]

/-- The loop passes over the members of an object and its brace. -/
theorem skipFrom_members {V : Bytes → Json → Prop}
    (hskips : ∀ text item, V text item → Skips text item) {body : Bytes} {members : Members}
    (h : MembersText V body members) {state : ContainerState} (hstate : ExpectsKey state)
    {below : List ContainerState}
    (hroom : below.length + 1 + membersDepth members ≤ MAX_JSON_NESTING) (post : Bytes) :
    skipFrom (state :: below) (body ++ [0x7d] ++ post) =
      if membersNumbersBelow (2 ^ 64) members then skipFrom below post
      else .error .unexpectedToken := by
  induction h generalizing state with
  | @last w text w' member hw h hw' =>
    rw [membersDepth, membersDepth, Nat.max_zero] at hroom
    have hstops : Cursor.Stops (w' ++ 0x7d :: post) := Cursor.stops_blank hw' (stops_rBrace post)
    have htext : w ++ text ++ w' ++ [0x7d] ++ post = w ++ text ++ (w' ++ 0x7d :: post) := by simp
    have hclose : skipFrom (.objectCommaOrEnd :: below) (w' ++ 0x7d :: post) = skipFrom below post :=
      skipFrom_token (fun h => Tok.noConfusion h)
        (nextToken_punctuation .rBrace rfl (by decide) hw' post) rfl
    rw [htext, skipFrom_member hskips h hstate hroom hw hstops, hclose, membersNumbersBelow,
      membersNumbersBelow, Bool.and_true]
  | @cons w text w' rest member members hw h hw' hrest ih =>
    rw [membersDepth] at hroom
    have hstops : Cursor.Stops (w' ++ 0x2c :: (rest ++ [0x7d] ++ post)) :=
      Cursor.stops_blank hw' (stops_comma _)
    have htext : w ++ text ++ w' ++ [0x2c] ++ rest ++ [0x7d] ++ post =
        w ++ text ++ (w' ++ 0x2c :: (rest ++ [0x7d] ++ post)) := by simp
    have hcomma : skipFrom (.objectCommaOrEnd :: below) (w' ++ 0x2c :: (rest ++ [0x7d] ++ post)) =
        skipFrom (.objectKey :: below) (rest ++ [0x7d] ++ post) :=
      skipFrom_token (fun h => Tok.noConfusion h)
        (nextToken_punctuation .comma rfl (by decide) hw' _) rfl
    rw [htext, skipFrom_member hskips h hstate (by omega) hw hstops, hcomma,
      ih .objectKey (by omega), membersNumbersBelow]
    cases member.2.numbersBelow (2 ^ 64) <;> rfl

/-- What a container leaves, from the token behind its opening one. -/
theorem skipFrom_arrayBody {n : Nat}
    (hskips : ∀ text item, ValueText text item ∧ item.depth < n → Skips text item)
    {body : Bytes} {items : List Json} (h : ItemsBody body items) (hdepth : itemsDepth items < n)
    {below : List ContainerState}
    (hroom : below.length + 1 + itemsDepth items ≤ MAX_JSON_NESTING) (post : Bytes) :
    skipFrom (.arrayValueOrEnd :: below) (body ++ [0x5d] ++ post) =
      if itemsNumbersBelow (2 ^ 64) items then skipFrom below post
      else .error .unexpectedToken := by
  rcases h with hempty | hitems
  · obtain ⟨rfl, hbody⟩ := hempty
    rw [List.append_assoc]
    exact skipFrom_token (fun h => Tok.noConfusion h)
      (nextToken_punctuation .rBracket rfl (by decide) hbody post) rfl
  · have hitem : ∀ item ∈ items, item.depth < n :=
      fun item h => lt_of_le_of_lt (itemsDepth_le.mp le_rfl item h) hdepth
    exact skipFrom_items hskips (itemsText_and.mpr ⟨hitems, hitem⟩) .arrayValueOrEnd hroom post

theorem skipFrom_objectBody {n : Nat}
    (hskips : ∀ text item, ValueText text item ∧ item.depth < n → Skips text item)
    {body : Bytes} {members : Members} (h : MembersBody body members)
    (hdepth : membersDepth members < n) {below : List ContainerState}
    (hroom : below.length + 1 + membersDepth members ≤ MAX_JSON_NESTING) (post : Bytes) :
    skipFrom (.objectKeyOrEnd :: below) (body ++ [0x7d] ++ post) =
      if membersNumbersBelow (2 ^ 64) members then skipFrom below post
      else .error .unexpectedToken := by
  rcases h with hempty | hmembers
  · obtain ⟨rfl, hbody⟩ := hempty
    rw [List.append_assoc]
    exact skipFrom_token (fun h => Tok.noConfusion h)
      (nextToken_punctuation .rBrace rfl (by decide) hbody post) rfl
  · have hmember : ∀ member ∈ members, member.2.depth < n :=
      fun member h => lt_of_le_of_lt (membersDepth_le.mp le_rfl member h) hdepth
    exact skipFrom_members hskips (membersText_and.mpr ⟨hmembers, hmember⟩) .objectKeyOrEnd hroom
      post

theorem pushContainer_room (parentNext childInitial : ContainerState) (below : List ContainerState)
    (hroom : below.length + 1 < MAX_JSON_NESTING) :
    pushContainer parentNext childInitial below = .ok (childInitial :: parentNext :: below) :=
  if_neg (by omega)

/-- By induction on how deep the value nests: the items of a container nest less. -/
theorem skips_of_depth (n : Nat) :
    ∀ text value, ValueText text value ∧ value.depth < n → Skips text value := by
  induction n with
  | zero =>
    intro text value h
    exact absurd h.2 (Nat.not_lt_zero _)
  | succ n ih =>
    intro text value h state next below w post hstate hroom hw hstops
    obtain ⟨htext, hdepth⟩ := h
    cases starts_of_valueText htext hw hstops with
    | atom hnext hatom =>
      have hprocess := (hstate.process _ hatom.ne_rBracket below).trans (hatom.process next below)
      by_cases hfits : value.numbersBelow (2 ^ 64) = true
      · rw [if_pos hfits] at hprocess ⊢
        exact skipFrom_token hatom.ne_eof hnext hprocess
      · rw [if_neg hfits] at hprocess ⊢
        exact skipFrom_error hatom.ne_eof hnext hprocess
    | array body hnext hbody =>
      rw [depth] at hroom hdepth
      have hpush := pushContainer_room next .arrayValueOrEnd below (by omega)
      have hprocess := (hstate.process .lBracket (fun h => Tok.noConfusion h) below).trans
        hpush
      rw [skipFrom_token (fun h => Tok.noConfusion h) hnext hprocess,
        skipFrom_arrayBody ih hbody (by omega) (by rw [List.length_cons]; omega), numbersBelow]
    | object body hnext hbody =>
      rw [depth] at hroom hdepth
      have hpush := pushContainer_room next .objectKeyOrEnd below (by omega)
      have hprocess := (hstate.process .lBrace (fun h => Tok.noConfusion h) below).trans
        hpush
      rw [skipFrom_token (fun h => Tok.noConfusion h) hnext hprocess,
        skipFrom_objectBody ih hbody (by omega) (by rw [List.length_cons]; omega), numbersBelow]

/-- Skipping a value takes exactly its text, unless a number of it does not fit. -/
theorem skipValue_valueText {text : Bytes} {value : Json} (h : ValueText text value)
    (hdepth : value.depth ≤ MAX_JSON_NESTING) {w post : Bytes} (hw : Blank w)
    (hstops : Cursor.Stops post) :
    skipValue (w ++ text ++ post) =
      if value.numbersBelow (2 ^ 64) then .ok post else .error .unexpectedToken := by
  cases starts_of_valueText h hw hstops with
  | atom hnext hatom =>
    rw [skipValue, hnext]
    dsimp only
    generalize value.numbersBelow (2 ^ 64) = fits at hatom
    cases hatom with
    | @num digits h =>
      dsimp only
      rw [parseU64Num_canonical h]
      by_cases hfits : digitsValue digits < 2 ^ 64
      · rw [if_pos hfits, if_pos (decide_eq_true hfits)]
      · rw [if_neg hfits, if_neg (by rw [decide_eq_true_eq]; exact hfits)]
    | _ => rfl
  | array body hnext hbody =>
    rw [depth] at hdepth
    rw [skipValue, hnext]
    dsimp only
    rw [skipUntilMatching, numbersBelow, ← skipFrom_nil post]
    exact skipFrom_arrayBody (skips_of_depth _) hbody (Nat.lt_succ_self _)
      (by rw [List.length_nil]; omega) post
  | object body hnext hbody =>
    rw [depth] at hdepth
    rw [skipValue, hnext]
    dsimp only
    rw [skipUntilMatching, numbersBelow, ← skipFrom_nil post]
    exact skipFrom_objectBody (skips_of_depth _) hbody (Nat.lt_succ_self _)
      (by rw [List.length_nil]; omega) post

/-! ## Places inside a document -/

theorem stops_after {after : Bytes} (h : Blank after ∨ ∃ w rest, Blank w ∧ after = w ++ 0x2c :: rest)
    {close : Bytes} (hclose : Cursor.Stops close) : Cursor.Stops (after ++ close) := by
  rcases h with hblank | hcomma
  · exact Cursor.stops_blank hblank hclose
  · obtain ⟨w, rest, hw, rfl⟩ := hcomma
    rw [List.append_assoc, List.cons_append]
    exact Cursor.stops_blank hw (stops_comma _)

theorem stops_of_occurs {input before text after : Bytes} {document value : Json}
    (h : Occurs input document before text after value) : Cursor.Stops after := by
  induction h with
  | root hinput hw h hw' =>
    have hempty : Cursor.Stops [] := fun b hb => by cases hb
    have hstops := Cursor.stops_blank hw' hempty
    rwa [List.append_nil] at hstops
  | item hparent hitem ih =>
    rw [List.append_assoc]
    exact stops_after hitem.after (stops_rBracket _)
  | member hparent hmember hw hkey hw' h ih =>
    rw [List.append_assoc]
    exact stops_after hmember.after (stops_rBrace _)

/-- What is captured of a member with an unknown key is the member. -/
theorem preserveUnknown_memberText {text : Bytes} {member : Bytes × Json}
    (h : MemberText ValueText text member) (hdepth : member.2.depth ≤ MAX_JSON_NESTING)
    {w post : Bytes} (hw : Blank w) (hstops : Cursor.Stops post) :
    preserveUnknown (w ++ text ++ post) =
      if member.2.numbersBelow (2 ^ 64) then .ok (w ++ text, post)
      else .error .unexpectedToken := by
  cases h with
  | @intro v key v' body item hv hkey hv' h =>
    have htext : w ++ (quoted key ++ v ++ [0x3a] ++ v' ++ body) ++ post =
        w ++ (quoted key ++ (v ++ 0x3a :: (v' ++ body ++ post))) := by simp
    have hstring : expectString (w ++ (quoted key ++ (v ++ 0x3a :: (v' ++ body ++ post)))) =
        .ok (key, v ++ 0x3a :: (v' ++ body ++ post)) := by
      rw [expectString, Tokenizer.nextToken_blank hw, Tokenizer.nextToken_string hkey]
    have hcolon : expectColon (v ++ 0x3a :: (v' ++ body ++ post)) = .ok (v' ++ body ++ post) := by
      rw [expectColon, nextToken_punctuation .colon rfl (by decide) hv]
    have hskip := skipValue_valueText h hdepth hv' hstops
    have hcaptured : (w ++ (quoted key ++ (v ++ 0x3a :: (v' ++ body ++ post)))).take
        ((w ++ (quoted key ++ (v ++ 0x3a :: (v' ++ body ++ post)))).length - post.length) =
        w ++ (quoted key ++ v ++ [0x3a] ++ v' ++ body) := by
      rw [← htext, List.length_append, Nat.add_sub_cancel, List.take_left]
    rw [htext, preserveUnknown, hstring]
    change (expectColon _ >>= fun behindColon => _) = _
    rw [hcolon]
    change (skipValue _ >>= fun after => _) = _
    rw [hskip]
    by_cases hfits : item.numbersBelow (2 ^ 64) = true
    · rw [if_pos hfits, if_pos hfits, ← hcaptured]
      rfl
    · rw [if_neg hfits, if_neg hfits]
      rfl

end KaspaPortal.Transaction.Pskt.Standard
